import Blehostd.Calls
import Blehostd.Services.Memory

namespace Blehostd

-- How a handler reports a failed field: with bhd_err_build, with bhd_err_fill
-- or in the status of its own response.
inductive Report where
  | build | fill | own
deriving DecidableEq, Repr

structure Exit where
  report : Report
  rc : ErrCode
  msg : String
  ret : Int
deriving DecidableEq, Repr

namespace Exit

def build (msg : String) (rc : ErrCode) : Exit := ⟨.build, rc, msg, 1⟩
def fill (msg : String) (rc : ErrCode) : Exit := ⟨.fill, rc, msg, 1⟩
def own (rc : ErrCode) : Exit := ⟨.own, rc, "", 1⟩

-- The handlers that return what bhd_err_build and bhd_err_fill return.
def buildRc (msg : String) (rc : ErrCode) : Exit := ⟨.build, rc, msg, rc.code⟩
def fillRc (msg : String) (rc : ErrCode) : Exit := ⟨.fill, rc, msg, rc.code⟩

def apply (e : Exit) (rsp : Rsp) : Rsp :=
  match e.report with
  | .build => errBuild e.rc.code e.msg rsp
  | .fill => errFill e.rc.code e.msg rsp
  | .own => { rsp with status := e.rc.code }

end Exit

-- Memory that is read before it is written: the descriptor blocks, the buffer
-- of the access_status handler with its length, and the value of a 16-bit UUID
-- read as 128 bits.
structure Junk where
  dscs : Nat → Nat → Nat → Gatts.Dsc
  buf : Vector UInt8 BLE_ATT_ATTR_MAX_LEN
  dataLen : Int
  uuidValue : Vector UInt8 16

structure Req where
  parent : Json
  seq : UInt32
  junk : Junk

abbrev ReqDecoder := Decoder Lookup Exit

abbrev ReqRun := Req → ReqDecoder Action

def syncReqRun (_ : Req) : ReqDecoder Action :=
  pure fun host rsp world =>
    .ok ⟨{ rsp with status := if host.synced then 1 else 0 }, world, [.hsSynced]⟩

def connectReqRun (r : Req) : ReqDecoder Action := do
  let ownAddrType ← need r.parent "own_addr_type" jsonAddrType (.build "invalid own_addr_type")
  let peerAddrType ← need r.parent "peer_addr_type" jsonAddrType (.build "invalid peer_addr_type")
  let peerAddr ← need r.parent "peer_addr" jsonAddr (.build "invalid peer_addr")
  let durationMs ← need r.parent "duration_ms" (jsonInt 0 INT32_MAX) (.build "invalid duration_ms")
  let scanItvl ← need r.parent "scan_itvl" (jsonInt 0 INT16_MAX) (.build "invalid scan_itvl")
  let scanWindow ← need r.parent "scan_window" (jsonInt 0 INT16_MAX) (.build "invalid scan_window")
  let itvlMin ← need r.parent "itvl_min" (jsonInt 0 INT16_MAX) (.build "invalid itvl_min")
  let itvlMax ← need r.parent "itvl_max" (jsonInt 0 INT16_MAX) (.build "invalid itvl_max")
  let latency ← need r.parent "latency" (jsonInt 0 INT16_MAX) (.build "invalid latency")
  let supervisionTimeout ← need r.parent "supervision_timeout" (jsonInt 0 INT16_MAX)
    (.build "invalid supervision_timeout")
  let minCeLen ← need r.parent "min_ce_len" (jsonInt 0 INT16_MAX) (.build "invalid min_ce_len")
  let maxCeLen ← need r.parent "max_ce_len" (jsonInt 0 INT16_MAX) (.build "invalid max_ce_len")
  let req : ConnectReq :=
    { ownAddrType := ownAddrType
      peerAddr := ⟨UInt8.ofInt peerAddrType, peerAddr⟩
      durationMs := Int32.ofInt durationMs
      scanItvl := UInt16.ofInt scanItvl
      scanWindow := UInt16.ofInt scanWindow
      itvlMin := UInt16.ofInt itvlMin
      itvlMax := UInt16.ofInt itvlMax
      latency := UInt16.ofInt latency
      supervisionTimeout := UInt16.ofInt supervisionTimeout
      minCeLen := UInt16.ofInt minCeLen
      maxCeLen := UInt16.ofInt maxCeLen }
  pure (gapConnect req r.seq)

-- A connection handle or an attribute handle.
def needHandle (r : Req) (name msg : String) (exit : String → ErrCode → Exit) :
    ReqDecoder UInt16 := do
  let handle ← need r.parent name (jsonInt 0 0xffff) (exit msg)
  pure (UInt16.ofInt handle)

def terminateReqRun (r : Req) : ReqDecoder Action := do
  let connHandle ← needHandle r "conn_handle" "invalid conn_handle" .fill
  let hciReason ← need r.parent "hci_reason" (jsonInt 0 0xff) (.fill "invalid hci_reason")
  pure (gapTerminate connHandle (UInt8.ofInt hciReason))

def discAllSvcsReqRun (r : Req) : ReqDecoder Action := do
  let connHandle ← needHandle r "conn_handle" "invalid conn_handle" .fill
  pure (gattcDiscAllSvcs connHandle r.seq)

def discSvcUuidReqRun (r : Req) : ReqDecoder Action := do
  let connHandle ← needHandle r "conn_handle" "invalid conn_handle" .fill
  let svcUuid ← need r.parent "svc_uuid" jsonUuid (.fill "invalid svc_uuid")
  pure (gattcDiscSvcUuid connHandle svcUuid r.seq)

def handleRangeDec (r : Req) : ReqDecoder HandleRange := do
  let connHandle ← needHandle r "conn_handle" "invalid conn_handle" .fill
  let startHandle ← needHandle r "start_handle" "invalid start_attr_handle" .fill
  let endHandle ← needHandle r "end_handle" "invalid end_attr_handle" .fill
  pure ⟨connHandle, startHandle, endHandle⟩

def discAllChrsReqRun (r : Req) : ReqDecoder Action := do
  let range ← handleRangeDec r
  pure (gattcDiscAllChrs range r.seq)

def discChrUuidReqRun (r : Req) : ReqDecoder Action := do
  let range ← handleRangeDec r
  let chrUuid ← need r.parent "chr_uuid" jsonUuid (.fill "invalid chr_uuid")
  pure (gattcDiscChrUuid range chrUuid r.seq)

def discAllDscsReqRun (r : Req) : ReqDecoder Action := do
  let range ← handleRangeDec r
  pure (gattcDiscAllDscs range r.seq)

def writeReqDec (r : Req) (attrBufSz : Nat) : ReqDecoder WriteReq := do
  let connHandle ← needHandle r "conn_handle" "invalid conn_handle" .fill
  let attrHandle ← needHandle r "attr_handle" "invalid attr_handle" .fill
  let data ← need r.parent "data" (jsonHexString attrBufSz) (.fill "invalid data")
  pure ⟨connHandle, attrHandle, data⟩

def writeReqRun (r : Req) : ReqDecoder Action := do
  let req ← writeReqDec r (BLE_ATT_ATTR_MAX_LEN + 3)
  pure (gattcWrite req r.seq)

def writeCmdReqRun (r : Req) : ReqDecoder Action := do
  let req ← writeReqDec r (BLE_ATT_ATTR_MAX_LEN + 3)
  pure (gattcWriteNoRsp req)

def exchangeMtuReqRun (r : Req) : ReqDecoder Action := do
  let connHandle ← needHandle r "conn_handle" "invalid conn_handle" .fillRc
  pure (gattcExchangeMtu connHandle r.seq)

def genRandAddrReqRun (r : Req) : ReqDecoder Action := do
  let nrpa ← need r.parent "nrpa" jsonFlag (.fillRc "invalid nrpa value")
  pure (idGenRandAddr (UInt8.ofInt nrpa))

def setRandAddrReqRun (r : Req) : ReqDecoder Action := do
  let addr ← need r.parent "addr" jsonAddr (.fillRc "invalid address")
  pure (idSetRandAddr addr)

def connCancelReqRun (_ : Req) : ReqDecoder Action :=
  pure gapConnCancel

-- A one-bit member keeps the lowest bit.
def bit (val : Int) : Bool := val % 2 = 1

def scanReqRun (r : Req) : ReqDecoder Action := do
  let ownAddrType ← need r.parent "own_addr_type" jsonAddrType (.build "invalid own_addr_type")
  let durationMs ← need r.parent "duration_ms" (jsonInt 0 INT32_MAX) (.build "invalid duration_ms")
  let itvl ← need r.parent "itvl" (jsonInt 0 UINT16_MAX) (.build "invalid itvl")
  let window ← need r.parent "window" (jsonInt 0 UINT16_MAX) (.build "invalid window")
  let filterPolicy ← need r.parent "filter_policy" jsonScanFilterPolicy
    (.build "invalid filter_policy")
  let limited ← need r.parent "limited" jsonFlag (.build "invalid limited")
  let passive ← need r.parent "passive" jsonFlag (.build "invalid passive")
  let filterDuplicates ← need r.parent "filter_duplicates" jsonFlag
    (.build "invalid filter_duplicates")
  let req : ScanReq :=
    { ownAddrType := UInt8.ofInt ownAddrType
      durationMs := Int32.ofInt durationMs
      itvl := UInt16.ofInt itvl
      window := UInt16.ofInt window
      filterPolicy := UInt8.ofInt filterPolicy
      limited := bit limited
      passive := bit passive
      filterDuplicates := bit filterDuplicates }
  pure (gapScan req r.seq)

def scanCancelReqRun (_ : Req) : ReqDecoder Action :=
  pure gapScanCancel

def setPreferredMtuReqRun (r : Req) : ReqDecoder Action := do
  let mtu ← need r.parent "mtu" (jsonInt 0 UINT16_MAX) (.build "invalid mtu")
  pure (gattcSetPreferredMtu (UInt16.ofInt mtu))

def securityInitiateReqRun (r : Req) : ReqDecoder Action := do
  let connHandle ← needHandle r "conn_handle" "invalid conn_handle" .build
  pure (gapSecurityInitiate connHandle)

def connFindReqRun (r : Req) : ReqDecoder Action := do
  let connHandle ← needHandle r "conn_handle" "invalid conn_handle" .build
  pure (gapConnFind connHandle)

def resetReqRun (_ : Req) : ReqDecoder Action :=
  pure fun _ rsp world => .ok ⟨rsp, world, [.hsSchedReset 0]⟩

-- The peer address is looked up when there is a peer address type.
def peerAddrDec (r : Req) : ReqDecoder BleAddr := do
  let addrType ← want r.parent "peer_addr_type" jsonAddrType (.build "invalid peer_addr_type")
  match addrType with
  | none => pure BleAddr.zero
  | some addrType => do
      let val ← need r.parent "peer_addr" jsonAddr (.build "invalid peer_addr")
      pure ⟨UInt8.ofInt addrType, val⟩

def advStartReqRun (r : Req) : ReqDecoder Action := do
  let ownAddrType ← need r.parent "own_addr_type" jsonAddrType (.build "invalid own_addr_type")
  let peerAddr ← peerAddrDec r
  let durationMs ← need r.parent "duration_ms" (jsonInt 0 INT32_MAX) (.build "invalid duration_ms")
  let connMode ← need r.parent "conn_mode" jsonAdvConnMode (.build "invalid conn_mode")
  let discMode ← need r.parent "disc_mode" jsonAdvDiscMode (.build "invalid disc_mode")
  let itvlMin ← need r.parent "itvl_min" (jsonInt 0 INT16_MAX) (.build "invalid itvl_min")
  let itvlMax ← need r.parent "itvl_max" (jsonInt 0 INT16_MAX) (.build "invalid itvl_max")
  let channelMap ← need r.parent "channel_map" (jsonInt 0 INT8_MAX) (.build "invalid channel_map")
  let filterPolicy ← need r.parent "filter_policy" jsonAdvFilterPolicy
    (.build "invalid filter_policy")
  let highDutyCycle ← need r.parent "high_duty_cycle" jsonFlag (.build "invalid high_duty_cycle")
  let req : AdvStartReq :=
    { ownAddrType := UInt8.ofInt ownAddrType
      peerAddr := peerAddr
      durationMs := Int32.ofInt durationMs
      connMode := UInt8.ofInt connMode
      discMode := UInt8.ofInt discMode
      itvlMin := UInt16.ofInt itvlMin
      itvlMax := UInt16.ofInt itvlMax
      channelMap := UInt8.ofInt channelMap
      filterPolicy := UInt8.ofInt filterPolicy
      highDutyCycle := bit highDutyCycle }
  pure (gapAdvStart req r.seq)

def advStopReqRun (_ : Req) : ReqDecoder Action :=
  pure gapAdvStop

def advSetDataReqRun (r : Req) : ReqDecoder Action := do
  let data ← need r.parent "data" (jsonHexString BLE_HCI_MAX_ADV_DATA_LEN) (.fillRc "invalid data")
  pure (gapAdvSetData data)

def advRspSetDataReqRun (r : Req) : ReqDecoder Action := do
  let data ← need r.parent "data" (jsonHexString BLE_HCI_MAX_ADV_DATA_LEN) (.fillRc "invalid data")
  pure (gapAdvRspSetData data)

def advFlagsDec (r : Req) : ReqDecoder UInt8 := do
  let flags ← want r.parent "flags" (jsonInt 0 UINT8_MAX) (.build "invalid flags")
  match flags with
  | none => pure 0
  | some u8 =>
      if UInt8.ofInt u8 = 0 then .leave (.build "invalid flags" .einval) else pure (UInt8.ofInt u8)

-- A text that has to fit into a field.
def advTextDec (r : Req) (name msg : String) : ReqDecoder (List UInt8) := do
  let text ← want r.parent name jsonString (.build msg)
  match text with
  | none => pure []
  | some s =>
      if BLE_HS_ADV_MAX_FIELD_SZ < s.length then .leave (.build msg .erange) else pure s

def advBytesDec (r : Req) (name msg : String) : ReqDecoder (List UInt8) := do
  let data ← want r.parent name (jsonHexString BLE_HS_ADV_MAX_FIELD_SZ) (.build msg)
  pure (data.getD [])

-- An absent flag has the value -1, whose lowest bit is set.
def advFlagDec (r : Req) (name : String) (exit : ErrCode → Exit) : ReqDecoder Bool := do
  let (val, _) ← wantPair r.parent name jsonBool exit
  pure (bit val)

-- The value with its presence flag.
def advIntDec (r : Req) (name msg : String) (minval maxval : Int) : ReqDecoder (Int × Bool) := do
  let (val, rc) ← wantPair r.parent name (jsonIntBounds minval maxval) (.build msg)
  pure (val, rc = none)

def slaveItvlDec (r : Req) : ReqDecoder (UInt16 × UInt16 × Bool) := do
  let (min, present) ← advIntDec r "slave_itvl_min" "invalid slave_itvl_min" 0 UINT16_MAX
  if present then
    let max ← need r.parent "slave_itvl_max" (jsonInt 0 UINT16_MAX) (.build "invalid slave_itvl_max")
    pure (UInt16.ofInt min, UInt16.ofInt max, true)
  else
    pure (UInt16.ofInt min, 0, false)

-- The sixteen bytes read from u128.value, whatever the type of the UUID.
def uuidValue (junk : Vector UInt8 16) : Uuid → Vector UInt8 16
  | .u128 value => value
  | _ => junk

def advFieldsReqRun (r : Req) : ReqDecoder Action := do
  let flags ← advFlagsDec r
  let uuids16 ← want r.parent "uuids16" (jsonArrUint16 (BLE_HS_ADV_MAX_FIELD_SZ / 2) 0 0xffff)
    (.build "invalid uuids16")
  let uuids16IsComplete ← advFlagDec r "uuids16_is_complete"
    (.build "invalid uuids16_is_complete value")
  let uuids32 ← want r.parent "uuids32" (jsonArrUint32 (BLE_HS_ADV_MAX_FIELD_SZ / 4) 0 0xffff)
    (.build "invalid uuids32")
  let uuids32IsComplete ← advFlagDec r "uuids32_is_complete"
    (.build "invalid uuids32_is_complete value")
  let uuids128 ← want r.parent "uuids128" (jsonArrUuid (BLE_HS_ADV_MAX_FIELD_SZ / 16))
    (.build "invalid uuids128")
  let uuids128IsComplete ← advFlagDec r "uuids128_is_complete"
    (.build "invalid uuids128_is_complete value")
  let name ← advTextDec r "name" "invalid name"
  let nameIsComplete ← advFlagDec r "name_is_complete" (.buildRc "invalid name_is_complete value")
  let (txPwrLvl, txPwrLvlIsPresent) ← advIntDec r "tx_pwr_lvl" "invalid tx_pwr_lvl" INT8_MIN INT8_MAX
  let (slaveItvlMin, slaveItvlMax, slaveItvlRangeIsPresent) ← slaveItvlDec r
  let svcDataUuid16 ← advBytesDec r "svc_data_uuid16" "invalid svc_data_uuid16"
  let publicTgtAddrs ← want r.parent "public_tgt_addrs" (jsonArrAddr (BLE_HS_ADV_MAX_FIELD_SZ / 6))
    (.build "invalid public_target_addrs")
  let (appearance, appearanceIsPresent) ← advIntDec r "appearance" "invalid appearance" 0 UINT16_MAX
  let (advItvl, advItvlIsPresent) ← advIntDec r "adv_itvl" "invalid adv_itvl" 0 UINT16_MAX
  let svcDataUuid32 ← advBytesDec r "svc_data_uuid32" "invalid svc_data_uuid32"
  let svcDataUuid128 ← advBytesDec r "svc_data_uuid128" "invalid svc_data_uuid128"
  let uri ← advTextDec r "uri" "invalid uri"
  let mfgData ← advBytesDec r "mfg_data" "invalid mfg_data"
  let req : AdvFieldsReq :=
    { flags := flags
      uuids16 := uuids16.getD []
      uuids16IsComplete := uuids16IsComplete
      uuids32 := uuids32.getD []
      uuids32IsComplete := uuids32IsComplete
      uuids128 := (uuids128.getD []).map (uuidValue r.junk.uuidValue)
      uuids128IsComplete := uuids128IsComplete
      name := name
      nameIsComplete := nameIsComplete
      txPwrLvl := Int8.ofInt txPwrLvl
      txPwrLvlIsPresent := txPwrLvlIsPresent
      slaveItvlMin := slaveItvlMin
      slaveItvlMax := slaveItvlMax
      slaveItvlRangeIsPresent := slaveItvlRangeIsPresent
      svcDataUuid16 := svcDataUuid16
      publicTgtAddrs := publicTgtAddrs.getD []
      appearance := UInt16.ofInt appearance
      appearanceIsPresent := appearanceIsPresent
      advItvl := UInt16.ofInt advItvl
      advItvlIsPresent := advItvlIsPresent
      svcDataUuid32 := svcDataUuid32
      svcDataUuid128 := svcDataUuid128
      uri := uri
      mfgData := mfgData }
  pure (gapAdvFields req)

def clearSvcsReqRun (_ : Req) : ReqDecoder Action :=
  pure gattsClearSvcs

def addSvcsDec (r : Req) : ReqDecoder (List Gatts.Svc) := do
  let arr ← need r.parent "services" jsonArr .own
  (Decoder.each (fun si item => jsonSvc (r.junk.dscs si) item) 0 arr).mapExit fun e => .own e.1

def addSvcsReqRun (r : Req) : ReqDecoder Action := do
  let svcs ← addSvcsDec r
  pure (gattsAddSvcs svcs)

def commitSvcsReqRun (_ : Req) : ReqDecoder Action :=
  pure gattsCommitSvcs

-- Without a data member the buffer and the length are what the stack holds.
def accessStatusReqRun (r : Req) : ReqDecoder Action := do
  let attStatus ← need r.parent "att_status" (jsonInt 0 UINT8_MAX) .own
  let data ← want r.parent "data" (jsonHexString BLE_ATT_ATTR_MAX_LEN) .own
  let dataLen := (data.map fun bytes => (bytes.length : Int)).getD r.junk.dataLen
  pure (gattsAccessStatus (UInt8.ofInt attStatus) (data.getD r.junk.buf.toList) dataLen)

-- The result code of the last lookup is not tested. After a failure the length
-- is still the 0 of the cleared request.
def notifyReqRun (r : Req) : ReqDecoder Action := do
  let connHandle ← need r.parent "conn_handle" (jsonInt 0 0xffff) .own
  let attrHandle ← need r.parent "attr_handle" (jsonInt 0 0xffff) .own
  let data ← attempt r.parent "data" (jsonHexString (BLE_ATT_ATTR_MAX_LEN + 3))
  pure (gattcNotify ⟨UInt16.ofInt connHandle, UInt16.ofInt attrHandle, data.getD []⟩)

def findChrReqRun (r : Req) : ReqDecoder Action := do
  let svcUuid ← need r.parent "svc_uuid" jsonUuid .own
  let chrUuid ← need r.parent "chr_uuid" jsonUuid .own
  pure (gattsFindChr svcUuid chrUuid)

-- The data that belongs to the action. What the others would hold stays zero.
def smIoDec (r : Req) (connHandle : UInt16) (action : Int) : ReqDecoder SmInjectIoReq := do
  let req : SmInjectIoReq := ⟨connHandle, action, List.replicate 16 0, 0, 0⟩
  if action = BLE_SM_IOACT_OOB then
    let oobData ← need r.parent "oob_data" (jsonHexString 16) .own
    if oobData.length ≠ 16 then .leave (.own .hsEinval) else pure { req with oobData := oobData }
  else if action = BLE_SM_IOACT_INPUT ∨ action = BLE_SM_IOACT_DISP then
    let passkey ← need r.parent "passkey" (jsonInt 0 UINT32_MAX) .own
    pure { req with passkey := UInt32.ofInt passkey }
  else if action = BLE_SM_IOACT_NUMCMP then
    let accept ← need r.parent "numcmp_accept" jsonFlag .own
    pure { req with numcmpAccept := UInt8.ofInt accept }
  else
    .leave (.own .hsEinval)

def smInjectIoReqRun (r : Req) : ReqDecoder Action := do
  let connHandle ← need r.parent "conn_handle" (jsonInt 0 UINT16_MAX) .own
  let action ← need r.parent "action" jsonSmPasskeyAction .own
  let req ← smIoDec r (UInt16.ofInt connHandle) action
  pure (smInjectIo req)

-- bhd_req_dispatch. The other types have no handler.
def reqDispatchFind : MsgType → Option ReqRun
  | .sync => some syncReqRun
  | .connect => some connectReqRun
  | .terminate => some terminateReqRun
  | .discAllSvcs => some discAllSvcsReqRun
  | .discSvcUuid => some discSvcUuidReqRun
  | .discAllChrs => some discAllChrsReqRun
  | .discChrUuid => some discChrUuidReqRun
  | .discAllDscs => some discAllDscsReqRun
  | .write => some writeReqRun
  | .writeCmd => some writeCmdReqRun
  | .exchangeMtu => some exchangeMtuReqRun
  | .genRandAddr => some genRandAddrReqRun
  | .setRandAddr => some setRandAddrReqRun
  | .connCancel => some connCancelReqRun
  | .scan => some scanReqRun
  | .scanCancel => some scanCancelReqRun
  | .setPreferredMtu => some setPreferredMtuReqRun
  | .encInitiate => some securityInitiateReqRun
  | .connFind => some connFindReqRun
  | .reset => some resetReqRun
  | .advStart => some advStartReqRun
  | .advStop => some advStopReqRun
  | .advSetData => some advSetDataReqRun
  | .advRspSetData => some advRspSetDataReqRun
  | .advFields => some advFieldsReqRun
  | .clearSvcs => some clearSvcsReqRun
  | .addSvcs => some addSvcsReqRun
  | .commitSvcs => some commitSvcsReqRun
  | .accessStatus => some accessStatusReqRun
  | .notify => some notifyReqRun
  | .findChr => some findChrReqRun
  | .smInjectIo => some smInjectIoReqRun
  | _ => none

-- What the run function returns, with the response, the state and the calls.
structure Outcome where
  ret : Int
  answer : Answer

-- An exit of the decoder comes before any call and any change of the state.
def runReq (run : ReqRun) (r : Req) (host : Host) (rsp : Rsp) (world : World) :
    Except Fault Outcome :=
  match (run r).result with
  | .error e => .ok ⟨e.ret, e.apply rsp, world, []⟩
  | .ok action => (action host rsp world).map fun answer => ⟨1, answer⟩

-- The error code comes with the text of the message.
def msgHdrDec (parent : Json) : Except (ErrCode × String) MsgHdr := do
  let op ← (jsonKv opMap parent "op").mapError (·, "invalid op")
  let type ← (jsonKv typeMap parent "type").mapError (·, "invalid type")
  let seq ← (jsonInt 0 BHD_SEQ_MAX.toNat parent "seq").mapError (·, "invalid seq")
  .ok ⟨op, type, UInt32.ofInt seq⟩

-- The response is cleared by the caller. Without a decoded header its sequence
-- number stays 0.
def Rsp.cleared (type : MsgType) (seq : UInt32) : Rsp := ⟨⟨.rsp, type, seq⟩, 0, .zero⟩

def errRsp (rc : Int) (msg : String) (seq : UInt32) (world : World) : Outcome :=
  ⟨1, errBuild rc msg (Rsp.cleared .err seq), world, []⟩

-- What a request does when it stays inside its blocks.
def reqOutcome (root : Option Json) (junk : Junk) (host : Host) (world : World) :
    Except Fault Outcome :=
  match root with
  | none => .ok (errRsp SYS_ERANGE "invalid json" 0 world)
  | some root =>
      match msgHdrDec root with
      | .error (rc, msg) => .ok (errRsp rc.code msg 0 world)
      | .ok hdr =>
          if hdr.op ≠ .req then .ok (errRsp SYS_ERANGE "invalid op" hdr.seq world)
          else
            match reqDispatchFind hdr.type with
            | none => .ok (errRsp SYS_ERANGE "invalid type" hdr.seq world)
            | some run =>
                runReq run ⟨root, hdr.seq, junk⟩ host (Rsp.cleared hdr.type hdr.seq) world

def addSvcsWrites (r : Req) : List ElemWrite :=
  match jsonArr r.parent "services" with
  | .error _ => []
  | .ok items => (fillSvcs r.junk.dscs items).lookups

-- The elements that a request writes to in the blocks that it allocates. Only the handler
-- of add_svcs decodes into such blocks.
def reqWrites (root : Option Json) (junk : Junk) : List ElemWrite :=
  match root with
  | none => []
  | some root =>
      match msgHdrDec root with
      | .ok ⟨.req, .addSvcs, seq⟩ => addSvcsWrites ⟨root, seq, junk⟩
      | _ => []

-- A write outside its block is a fault, whatever the handler would have returned.
def reqDec (root : Option Json) (junk : Junk) (host : Host) (world : World) :
    Except Fault Outcome :=
  if ∀ w ∈ reqWrites root junk, w.Inside then reqOutcome root junk host world
  else .error .outOfBounds

end Blehostd
