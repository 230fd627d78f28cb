import Blehostd.Requests

namespace Blehostd

-- "%02x"
def hexByte (byte : UInt8) : Text :=
  let digit (n : Nat) : UInt8 := UInt8.ofNat (if n < 10 then 48 + n else 87 + n)
  [digit (byte.toNat / 16), digit (byte.toNat % 16)]

-- bhd_hex_str with the text in dst and the offset. When a piece does not fit,
-- snprintf has written the start of it.
def hexStrLoop : Nat → Text → Nat → List UInt8 → Text × Nat
  | _, dst, off, [] => (dst, off)
  | remLen, dst, off, byte :: rest =>
      let piece := (if 0 < off then ascii ":0x" else ascii "0x") ++ hexByte byte
      let dst := dst ++ piece.take (remLen - 1)
      if remLen ≤ piece.length then (dst, off)
      else hexStrLoop (remLen - piece.length) dst (off + piece.length) rest

def hexStr (maxDstLen : Nat) (src : List UInt8) : Text × Nat :=
  hexStrLoop maxDstLen [] 0 src

def createByteString (data : List UInt8) : Json :=
  .string (hexStr (data.length * 5 + 1) data).1

def addBytes (name : String) (data : List UInt8) : Members :=
  addItem name (createByteString data)

-- "%02x:%02x:%02x:%02x:%02x:%02x" from addr[5] to addr[0].
def addrStr (addr : Addr) : Text :=
  ((addr.toList.reverse.map hexByte).intersperse (ascii ":")).flatten

def addAddr (name : String) (addr : Addr) : Members :=
  addText name (addrStr addr)

-- A type without a name is left out.
def addAddrType (name : String) (addrType : UInt8) : Members :=
  match kvRevFind addrTypeMap addrType.toNat with
  | none => []
  | some valstr => addString name valstr

def addBleAddr (typeName name : String) (addr : BleAddr) : Members :=
  if addr.type ≠ BHD_ADDR_TYPE_NONE then addAddrType typeName addr.type ++ addAddr name addr.val
  else []

section Encoders

-- ble_uuid_to_str of the host.
variable (uuidToStr : Uuid → Text)

def createUuid : UuidAny → Except Fault Json
  | .known (.u16 value) => .ok (.number value.toNat)
  | .known (.u32 value) => .ok (.number value.toNat)
  | .known (.u128 value) => .ok (.string (uuidToStr (.u128 value)))
  | .other _ => .error .assertion

def createCommitDsc (dsc : Gatts.CommitDsc) : Except Fault Json := do
  let uuid ← createUuid uuidToStr dsc.uuid
  .ok (.object (addItem "uuid" uuid ++ addInt "handle" dsc.handle.toNat))

def createCommitChr (chr : Gatts.CommitChr) : Except Fault Json := do
  let uuid ← createUuid uuidToStr chr.uuid
  let dscs ← chr.dscs.mapM (createCommitDsc uuidToStr)
  .ok (.object (addItem "uuid" uuid ++ addInt "def_handle" chr.defHandle.toNat ++
    addInt "val_handle" chr.valHandle.toNat ++ addItem "descriptors" (.array dscs)))

def createCommitSvc (svc : Gatts.CommitSvc) : Except Fault Json := do
  let uuid ← createUuid uuidToStr svc.uuid
  let chrs ← svc.chrs.mapM (createCommitChr uuidToStr)
  .ok (.object (addItem "uuid" uuid ++ addInt "handle" svc.handle.toNat ++
    addItem "characteristics" (.array chrs)))

end Encoders

abbrev SubrspEnc := (Uuid → Text) → Rsp → Except Fault Members

def errMsg : RspBody → String
  | .msg text => text
  | _ => ""

def errRspEnc : SubrspEnc := fun _ rsp =>
  .ok (addInt "status" rsp.status ++ addString "msg" (errMsg rsp.body))

def syncRspEnc : SubrspEnc := fun _ rsp =>
  .ok (addBool "synced" (rsp.status ≠ 0))

def statusRspEnc : SubrspEnc := fun _ rsp =>
  .ok (addInt "status" rsp.status)

def connectRspEnc : SubrspEnc := statusRspEnc
def terminateRspEnc : SubrspEnc := statusRspEnc
def discAllSvcsRspEnc : SubrspEnc := statusRspEnc
def discSvcUuidRspEnc : SubrspEnc := statusRspEnc
def discAllChrsRspEnc : SubrspEnc := statusRspEnc
def discChrUuidRspEnc : SubrspEnc := statusRspEnc
def discAllDscsRspEnc : SubrspEnc := statusRspEnc
def writeRspEnc : SubrspEnc := statusRspEnc
def exchangeMtuRspEnc : SubrspEnc := statusRspEnc
def setRandAddrRspEnc : SubrspEnc := statusRspEnc
def connCancelRspEnc : SubrspEnc := statusRspEnc
def scanRspEnc : SubrspEnc := statusRspEnc
def scanCancelRspEnc : SubrspEnc := statusRspEnc
def setPreferredMtuRspEnc : SubrspEnc := statusRspEnc
def securityInitiateRspEnc : SubrspEnc := statusRspEnc
def advStartRspEnc : SubrspEnc := statusRspEnc
def advStopRspEnc : SubrspEnc := statusRspEnc
def advSetDataRspEnc : SubrspEnc := statusRspEnc
def advRspSetDataRspEnc : SubrspEnc := statusRspEnc
def clearSvcsRspEnc : SubrspEnc := statusRspEnc
def addSvcsRspEnc : SubrspEnc := statusRspEnc
def accessStatusRspEnc : SubrspEnc := statusRspEnc
def notifyRspEnc : SubrspEnc := statusRspEnc
def smInjectIoRspEnc : SubrspEnc := statusRspEnc

-- The members below read the union behind the status: what the handler has put
-- there, or else the zero bytes of the cleared response.
def rndAddrOf : RspBody → Addr
  | .addr addr => addr
  | _ => Vector.replicate 6 0

def genRandAddrRspEnc : SubrspEnc := fun _ rsp =>
  .ok (addInt "status" rsp.status ++
    if rsp.status = 0 then addAddr "addr" (rndAddrOf rsp.body) else [])

def connFindOf : RspBody → ConnFindRsp
  | .connFind rsp => rsp
  | _ => ConnFindRsp.zero

def connFindRspEnc : SubrspEnc := fun _ rsp =>
  let r := connFindOf rsp.body
  .ok (addInt "status" rsp.status ++
    (if r.connHandle ≠ BLE_HS_CONN_HANDLE_NONE then addInt "conn_handle" r.connHandle.toNat
      else []) ++
    addInt "conn_itvl" r.connItvl.toNat ++
    addInt "conn_latency" r.connLatency.toNat ++
    addInt "supervision_timeout" r.supervisionTimeout.toNat ++
    addInt "role" r.role.toNat ++
    addInt "master_clock_accuracy" r.masterClockAccuracy.toNat ++
    addBleAddr "own_id_addr_type" "own_id_addr" r.ourIdAddr ++
    addBleAddr "own_ota_addr_type" "own_ota_addr" r.ourOtaAddr ++
    addBleAddr "peer_id_addr_type" "peer_id_addr" r.peerIdAddr ++
    addBleAddr "peer_ota_addr_type" "peer_ota_addr" r.peerOtaAddr ++
    addBool "encrypted" r.encrypted ++
    addBool "authenticated" r.authenticated ++
    addBool "bonded" r.bonded ++
    addInt "key_size" r.keySize.toNat)

def resetRspEnc : SubrspEnc := fun _ _ => .ok []

def advDataOf : RspBody → List UInt8
  | .advFields data => data
  | _ => []

def advFieldsRspEnc : SubrspEnc := fun _ rsp =>
  .ok (addInt "status" rsp.status ++
    if rsp.status = 0 then addBytes "data" (advDataOf rsp.body) else [])

def commitSvcsOf : RspBody → List Gatts.CommitSvc
  | .commitSvcs svcs => svcs
  | _ => []

def commitSvcsRspEnc : SubrspEnc := fun uuidToStr rsp => do
  let svcs ← (commitSvcsOf rsp.body).mapM (createCommitSvc uuidToStr)
  .ok (addInt "status" rsp.status ++ addItem "services" (.array svcs))

def handlesOf : RspBody → UInt16 × UInt16
  | .findChr defHandle valHandle => (defHandle, valHandle)
  | _ => (0, 0)

def findChrRspEnc : SubrspEnc := fun _ rsp =>
  let (defHandle, valHandle) := handlesOf rsp.body
  .ok (addInt "status" rsp.status ++ addInt "def_handle" defHandle.toNat ++
    addInt "val_handle" valHandle.toNat)

-- bhd_rsp_dispatch. An event type has no entry, and the search ends in an assert.
def rspDispatchFind : MsgType → Except Fault SubrspEnc
  | .err => .ok errRspEnc
  | .sync => .ok syncRspEnc
  | .connect => .ok connectRspEnc
  | .terminate => .ok terminateRspEnc
  | .discAllSvcs => .ok discAllSvcsRspEnc
  | .discSvcUuid => .ok discSvcUuidRspEnc
  | .discAllChrs => .ok discAllChrsRspEnc
  | .discChrUuid => .ok discChrUuidRspEnc
  | .discAllDscs => .ok discAllDscsRspEnc
  | .write => .ok writeRspEnc
  | .writeCmd => .ok writeRspEnc
  | .exchangeMtu => .ok exchangeMtuRspEnc
  | .genRandAddr => .ok genRandAddrRspEnc
  | .setRandAddr => .ok setRandAddrRspEnc
  | .connCancel => .ok connCancelRspEnc
  | .scan => .ok scanRspEnc
  | .scanCancel => .ok scanCancelRspEnc
  | .setPreferredMtu => .ok setPreferredMtuRspEnc
  | .encInitiate => .ok securityInitiateRspEnc
  | .connFind => .ok connFindRspEnc
  | .reset => .ok resetRspEnc
  | .advStart => .ok advStartRspEnc
  | .advStop => .ok advStopRspEnc
  | .advSetData => .ok advSetDataRspEnc
  | .advRspSetData => .ok advRspSetDataRspEnc
  | .advFields => .ok advFieldsRspEnc
  | .addSvcs => .ok addSvcsRspEnc
  | .clearSvcs => .ok clearSvcsRspEnc
  | .commitSvcs => .ok commitSvcsRspEnc
  | .accessStatus => .ok accessStatusRspEnc
  | .notify => .ok notifyRspEnc
  | .findChr => .ok findChrRspEnc
  | .smInjectIo => .ok smInjectIoRspEnc
  | _ => .error .assertion

-- cJSON_AddStringToObject with the name of a code.
def addName {α : Type} [DecidableEq α] (map : List (String × α)) (name : String) (val : α) :
    Members :=
  addString name ((kvRevFind map val).getD "")

def msgHdrEnc (hdr : MsgHdr) : Members :=
  addName opMap "op" hdr.op ++ addName typeMap "type" hdr.type ++ addInt "seq" hdr.seq.toNat

def rspEnc (uuidToStr : Uuid → Text) (rsp : Rsp) : Except Fault Json := do
  let enc ← rspDispatchFind rsp.hdr.type
  let members ← enc uuidToStr rsp
  .ok (.object (msgHdrEnc rsp.hdr ++ members))

end Blehostd
