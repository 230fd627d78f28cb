import Blehostd.Gatts
import Blehostd.Library.Decoder
import Blehostd.Parse
import Blehostd.Proto

namespace Blehostd

def INT8_MAX : Int := 127
def INT8_MIN : Int := -128
def UINT8_MAX : Int := 255
def INT16_MAX : Int := 32767
def UINT16_MAX : Int := 65535
def INT32_MAX : Int := 2147483647
def UINT32_MAX : Int := 4294967295

def BLE_UUID_STR_LEN : Nat := 37

def opMap : List (String × MsgOp) :=
  [("request", .req), ("response", .rsp), ("event", .evt)]

def typeMap : List (String × MsgType) :=
  [("error", .err), ("sync", .sync), ("connect", .connect), ("terminate", .terminate),
    ("disc_all_svcs", .discAllSvcs), ("disc_svc_uuid", .discSvcUuid),
    ("disc_all_chrs", .discAllChrs), ("disc_chr_uuid", .discChrUuid),
    ("disc_all_dscs", .discAllDscs), ("write", .write), ("write_cmd", .writeCmd),
    ("exchange_mtu", .exchangeMtu), ("gen_rand_addr", .genRandAddr),
    ("set_rand_addr", .setRandAddr), ("conn_cancel", .connCancel), ("scan", .scan),
    ("scan_cancel", .scanCancel), ("set_preferred_mtu", .setPreferredMtu),
    ("security_initiate", .encInitiate), ("conn_find", .connFind), ("reset", .reset),
    ("adv_start", .advStart), ("adv_stop", .advStop), ("adv_set_data", .advSetData),
    ("adv_rsp_set_data", .advRspSetData), ("adv_fields", .advFields),
    ("clear_svcs", .clearSvcs), ("add_svcs", .addSvcs), ("commit_svcs", .commitSvcs),
    ("access_status", .accessStatus), ("notify", .notify), ("find_chr", .findChr),
    ("sm_inject_io", .smInjectIo), ("sync_evt", .syncEvt), ("connect_evt", .connectEvt),
    ("disconnect_evt", .disconnectEvt), ("disc_svc_evt", .discSvcEvt),
    ("disc_chr_evt", .discChrEvt), ("disc_dsc_evt", .discDscEvt),
    ("write_ack_evt", .writeAckEvt), ("notify_rx_evt", .notifyRxEvt),
    ("mtu_change_evt", .mtuChangeEvt), ("scan_evt", .scanEvt), ("scan_tmo_evt", .scanTmoEvt),
    ("enc_change_evt", .encChangeEvt), ("reset_evt", .resetEvt), ("access_evt", .accessEvt),
    ("adv_complete_evt", .advCompleteEvt), ("passkey_evt", .passkeyEvt)]

def addrTypeMap : List (String × Int) :=
  [("public", 0), ("random", 1), ("rpa_pub", 2), ("rpa_rnd", 3)]

def scanFilterPolicyMap : List (String × Int) :=
  [("no_wl", 0), ("use_wl", 1), ("no_wl_inita", 2), ("use_wl_inita", 3)]

def advConnModeMap : List (String × Int) :=
  [("non", 0), ("dir", 1), ("und", 2)]

def advDiscModeMap : List (String × Int) :=
  [("non", 0), ("ltd", 1), ("gen", 2)]

def advFilterPolicyMap : List (String × Int) :=
  [("none", 0), ("scan", 1), ("conn", 2), ("both", 3)]

def svcTypeMap : List (String × SvcType) :=
  [("primary", .primary), ("secondary", .secondary)]

def smPasskeyActionMap : List (String × Int) :=
  [("oob", BLE_SM_IOACT_OOB), ("input", BLE_SM_IOACT_INPUT), ("disp", BLE_SM_IOACT_DISP),
    ("numcmp", BLE_SM_IOACT_NUMCMP)]

-- No value of the maps is the -1 that stands for an unknown key.
def kvFind {α : Type} (map : List (String × α)) (key : Text) : Option α :=
  (map.find? fun entry => ascii entry.1 = key).map Prod.snd

def kvRevFind {α : Type} [DecidableEq α] (map : List (String × α)) (val : α) : Option String :=
  (map.find? fun entry => entry.2 = val).map Prod.fst

-- A value that comes with its result code.
def checked {α : Type} (val : α) : Rc → Except ErrCode α
  | none => .ok val
  | some e => .error e

-- The functions on integers and flags give a value also with a failure, and
-- some callers use it.
def processJsonInt (item : Json) : Int × Rc :=
  match item with
  | .number valueint => (valueint, none)
  | _ => (-1, some .erange)

def processJsonIntBounds (minval maxval : Int) (item : Json) : Int × Rc :=
  let (val, rc) := processJsonInt item
  if rc ≠ none then (0, rc)
  else if val < minval ∨ maxval < val then (0, some .erange)
  else (val, none)

def processJsonString (item : Json) : Except ErrCode Text :=
  match item with
  | .string valuestring => .ok valuestring
  | _ => .error .erange

def processJsonHexString (maxLen : Nat) (item : Json) : Except ErrCode (List UInt8) :=
  match processJsonString item with
  | .ok valstr =>
      let (rc, bytes) := parseArgByteStream valstr maxLen
      checked bytes rc
  | .error rc => .error (if rc = .enoent then .erange else rc)

def processJsonAddr (item : Json) : Except ErrCode Addr := do
  let valstr ← processJsonString item
  let (rc, bytes) := parseArgMac valstr
  let bytes ← checked bytes rc
  -- parse_arg_mac accepts nothing but six bytes.
  if h : bytes.length = 6 then .ok ⟨bytes.toArray, h⟩ else .error .einval

-- The string form of a UUID: character i goes into byte k of the value.
def uuidLoop : Text → Nat → Nat → Vector UInt8 16 → Except ErrCode (Vector UInt8 16)
  | [], _, _, value => .ok value
  | c :: text, i, k, value =>
      if 36 ≤ i then .ok value
      else if i = 8 ∨ i = 13 ∨ i = 18 ∨ i = 23 then
        if c ≠ 45 then .error .erange else uuidLoop text (i + 1) k value
      else
        match text with
        | [] => .ok value
        | d :: rest =>
            let (ul, endptr) := strtoul [c, d]
            if endptr ≠ [] then .error .erange
            else uuidLoop rest (i + 2) (k - 1) (value.setIfInBounds k (UInt8.ofNat ul))

def processJsonUuid (item : Json) : Except ErrCode Uuid :=
  let (u16, rc) := processJsonIntBounds 1 0xffff item
  if rc = none then .ok (.u16 (UInt16.ofInt u16))
  else do
    let valstr ← processJsonString item
    if valstr.length < BLE_UUID_STR_LEN - 1 then .error .erange
    else
      let value ← uuidLoop valstr 0 15 (Vector.replicate 16 0)
      .ok (.u128 value)

-- The lookup of a member, with SYS_ENOENT when there is none.
def member {α : Type} (process : Json → Except ErrCode α) (parent : Json) (name : String) :
    Except ErrCode α :=
  match parent.getObjectItem name with
  | none => .error .enoent
  | some item => process item

def jsonBool (parent : Json) (name : String) : Int × Rc :=
  match parent.getObjectItem name with
  | none => (-1, some .enoent)
  | some .false => (0, none)
  | some .true => (1, none)
  | some _ => (0, some .erange)

def jsonIntBounds (minval maxval : Int) (parent : Json) (name : String) : Int × Rc :=
  match parent.getObjectItem name with
  | none => (0, some .enoent)
  | some item => processJsonIntBounds minval maxval item

def jsonString : Json → String → Except ErrCode Text :=
  member processJsonString

def jsonHexString (maxLen : Nat) : Json → String → Except ErrCode (List UInt8) :=
  member (processJsonHexString maxLen)

def jsonAddr : Json → String → Except ErrCode Addr :=
  member processJsonAddr

def jsonUuid : Json → String → Except ErrCode Uuid :=
  member processJsonUuid

def jsonArr : Json → String → Except ErrCode (List Json) :=
  member fun item =>
    match item with
    | .array items => .ok items
    | _ => .error .erange

def jsonKv {α : Type} (map : List (String × α)) (parent : Json) (name : String) :
    Except ErrCode α := do
  let valstr ← jsonString parent name
  match kvFind map valstr with
  | none => .error .erange
  | some valnum => .ok valnum

def jsonAddrType := jsonKv addrTypeMap
def jsonScanFilterPolicy := jsonKv scanFilterPolicyMap
def jsonAdvConnMode := jsonKv advConnModeMap
def jsonAdvDiscMode := jsonKv advDiscModeMap
def jsonAdvFilterPolicy := jsonKv advFilterPolicyMap
def jsonSmPasskeyAction := jsonKv smPasskeyActionMap
def jsonSvcType := jsonKv svcTypeMap

-- What a callback of bhd_json_arr_gen returns, its result code, and the
-- elements stored so far.
structure ArrStep (α : Type) where
  proceed : Bool
  rc : Rc
  elems : List α

-- The loop goes on while the callback returns 1 and gives up its code at the end.
def arrLoop {α : Type} (cb : List α → Json → ArrStep α) : List α → List Json → Rc × List α
  | elems, [] => (none, elems)
  | elems, item :: rest =>
      let step := cb elems item
      if step.proceed then arrLoop cb step.elems rest else (step.rc, step.elems)

-- The callbacks ble_json_arr_fn_llong, _hex_string, _addr and _uuid return 1
-- after an error and 0 after they have stored the element.
def arrFn {α : Type} (maxElems : Nat) (process : Json → Except ErrCode α) (elems : List α)
    (item : Json) : ArrStep α :=
  if maxElems ≤ elems.length then ⟨true, some .erange, elems⟩
  else
    match process item with
    | .error e => ⟨true, some e, elems⟩
    | .ok elem => ⟨false, none, elems ++ [elem]⟩

def jsonArrGen {α : Type} (maxElems : Nat) (process : Json → Except ErrCode α) (parent : Json)
    (name : String) : Except ErrCode (List α) := do
  let arr ← jsonArr parent name
  let (rc, elems) := arrLoop (arrFn maxElems process) [] arr
  checked elems rc

def jsonArrLlong (maxElems : Nat) (minval maxval : Int) :
    Json → String → Except ErrCode (List Int) :=
  jsonArrGen maxElems fun item =>
    let (val, rc) := processJsonIntBounds minval maxval item
    checked val rc

def jsonArrUint16 (maxElems : Nat) (minval maxval : UInt16) (parent : Json) (name : String) :
    Except ErrCode (List UInt16) := do
  let vals ← jsonArrLlong maxElems minval.toNat maxval.toNat parent name
  .ok (vals.map UInt16.ofInt)

def jsonArrUint32 (maxElems : Nat) (minval maxval : UInt32) (parent : Json) (name : String) :
    Except ErrCode (List UInt32) := do
  let vals ← jsonArrLlong maxElems minval.toNat maxval.toNat parent name
  .ok (vals.map UInt32.ofInt)

-- An element of ble_json_arr_hex_string has to fill its slot.
def hexStringElem (elemSz : Nat) (item : Json) : Except ErrCode (List UInt8) := do
  let elem ← processJsonHexString elemSz item
  if elem.length ≠ elemSz then .error .erange else .ok elem

def jsonArrHexString (elemSz maxElems : Nat) :
    Json → String → Except ErrCode (List (List UInt8)) :=
  jsonArrGen maxElems (hexStringElem elemSz)

def jsonArrAddr (maxElems : Nat) : Json → String → Except ErrCode (List Addr) :=
  jsonArrGen maxElems processJsonAddr

def jsonArrUuid (maxElems : Nat) : Json → String → Except ErrCode (List Uuid) :=
  jsonArrGen maxElems processJsonUuid

end Blehostd
