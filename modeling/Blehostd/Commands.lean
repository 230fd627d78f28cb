import Blehostd.Events.Reading
import Blehostd.Events.Scan.Theorems

namespace Blehostd

-- What a client asks for: an entry of bhd_req_dispatch with the arguments of the function that
-- its handler calls.
inductive Command where
  | sync
  | connect (req : ConnectReq)
  | terminate (connHandle : UInt16) (hciReason : UInt8)
  | discAllSvcs (connHandle : UInt16)
  | discSvcUuid (connHandle : UInt16) (svcUuid : Uuid)
  | discAllChrs (range : HandleRange)
  | discChrUuid (range : HandleRange) (chrUuid : Uuid)
  | discAllDscs (range : HandleRange)
  | write (req : WriteReq)
  | writeCmd (req : WriteReq)
  | exchangeMtu (connHandle : UInt16)
  | genRandAddr (nrpa : Bool)
  | setRandAddr (addr : Addr)
  | connCancel
  | scan (req : ScanReq)
  | scanCancel
  | setPreferredMtu (mtu : UInt16)
  | encInitiate (connHandle : UInt16)
  | connFind (connHandle : UInt16)
  | reset
  | advStart (req : AdvStartReq)
  | advStop
  | advSetData (data : List UInt8)
  | advRspSetData (data : List UInt8)
  | advFields (req : AdvFieldsReq)
  | clearSvcs
  | addSvcs (svcs : List Gatts.Svc)
  | commitSvcs
  | accessStatus (attStatus : UInt8) (data : List UInt8)
  | notify (req : WriteReq)
  | findChr (svcUuid chrUuid : Uuid)
  | smInjectIo (connHandle : UInt16) (io : SmIo)

def SmIo.action : SmIo → Int
  | .oob _ => BLE_SM_IOACT_OOB
  | .input _ => BLE_SM_IOACT_INPUT
  | .disp _ => BLE_SM_IOACT_DISP
  | .numcmp _ => BLE_SM_IOACT_NUMCMP

-- A value that has a name.
def Known {α : Type} [DecidableEq α] (map : List (String × α)) (val : α) : Prop :=
  ∃ name, kvRevFind map val = some name

-- A UUID that a request can have: a number of sixteen bits other than 0, or a string.
def Uuid.Requestable : Uuid → Prop
  | .u16 value => value ≠ 0
  | .u32 _ => False
  | .u128 _ => True

structure ConnectReq.Requestable (req : ConnectReq) : Prop where
  ownAddrType : Known addrTypeMap req.ownAddrType
  peerAddr : Known addrTypeMap (req.peerAddr.type.toNat : Int)
  durationMs : 0 ≤ req.durationMs.toInt
  halves : ∀ value ∈ [req.scanItvl, req.scanWindow, req.itvlMin, req.itvlMax, req.latency,
    req.supervisionTimeout, req.minCeLen, req.maxCeLen], (value.toNat : Int) ≤ INT16_MAX

structure ScanReq.Requestable (req : ScanReq) : Prop where
  ownAddrType : Known addrTypeMap (req.ownAddrType.toNat : Int)
  durationMs : 0 ≤ req.durationMs.toInt
  filterPolicy : Known scanFilterPolicyMap (req.filterPolicy.toNat : Int)

-- The zero address stands for no peer.
structure AdvStartReq.Requestable (req : AdvStartReq) : Prop where
  ownAddrType : Known addrTypeMap (req.ownAddrType.toNat : Int)
  peerAddr : req.peerAddr ≠ BleAddr.zero → Known addrTypeMap (req.peerAddr.type.toNat : Int)
  durationMs : 0 ≤ req.durationMs.toInt
  connMode : Known advConnModeMap (req.connMode.toNat : Int)
  discMode : Known advDiscModeMap (req.discMode.toNat : Int)
  itvlMin : (req.itvlMin.toNat : Int) ≤ INT16_MAX
  itvlMax : (req.itvlMax.toNat : Int) ≤ INT16_MAX
  channelMap : (req.channelMap.toNat : Int) ≤ INT8_MAX
  filterPolicy : Known advFilterPolicyMap (req.filterPolicy.toNat : Int)

-- A number that is not present is 0.
structure AdvFieldsReq.Requestable (req : AdvFieldsReq) : Prop where
  lists : Reportable req
  uuids32 : ∀ uuid ∈ req.uuids32, uuid ≤ 0xffff
  txPwrLvl : req.txPwrLvlIsPresent = false → req.txPwrLvl = 0
  appearance : req.appearanceIsPresent = false → req.appearance = 0
  advItvl : req.advItvlIsPresent = false → req.advItvl = 0

-- The decoder of descriptors does not store them.
structure ChrRequestable (chr : Gatts.Chr) : Prop where
  uuid : chr.uuid.Requestable
  dscs : chr.dscs = []

structure SvcRequestable (svc : Gatts.Svc) : Prop where
  uuid : svc.uuid.Requestable
  chrs : ∀ chr ∈ svc.chrs, ChrRequestable chr

def SmIo.Requestable : SmIo → Prop
  | .oob data => data.length = 16
  | .numcmp accept => accept ≤ 1
  | _ => True

namespace Command

def type : Command → MsgType
  | .sync => .sync
  | .connect _ => .connect
  | .terminate _ _ => .terminate
  | .discAllSvcs _ => .discAllSvcs
  | .discSvcUuid _ _ => .discSvcUuid
  | .discAllChrs _ => .discAllChrs
  | .discChrUuid _ _ => .discChrUuid
  | .discAllDscs _ => .discAllDscs
  | .write _ => .write
  | .writeCmd _ => .writeCmd
  | .exchangeMtu _ => .exchangeMtu
  | .genRandAddr _ => .genRandAddr
  | .setRandAddr _ => .setRandAddr
  | .connCancel => .connCancel
  | .scan _ => .scan
  | .scanCancel => .scanCancel
  | .setPreferredMtu _ => .setPreferredMtu
  | .encInitiate _ => .encInitiate
  | .connFind _ => .connFind
  | .reset => .reset
  | .advStart _ => .advStart
  | .advStop => .advStop
  | .advSetData _ => .advSetData
  | .advRspSetData _ => .advRspSetData
  | .advFields _ => .advFields
  | .clearSvcs => .clearSvcs
  | .addSvcs _ => .addSvcs
  | .commitSvcs => .commitSvcs
  | .accessStatus _ _ => .accessStatus
  | .notify _ => .notify
  | .findChr _ _ => .findChr
  | .smInjectIo _ _ => .smInjectIo

-- The arguments that a request can have and that the daemon takes as they are.
def Requestable : Command → Prop
  | .connect req => req.Requestable
  | .discSvcUuid _ svcUuid => svcUuid.Requestable
  | .discChrUuid _ chrUuid => chrUuid.Requestable
  | .write req => req.data.length ≤ BLE_ATT_ATTR_MAX_LEN + 3
  | .writeCmd req => req.data.length ≤ BLE_ATT_ATTR_MAX_LEN + 3
  | .scan req => req.Requestable
  | .advStart req => req.Requestable
  | .advSetData data => data.length ≤ BLE_HCI_MAX_ADV_DATA_LEN
  | .advRspSetData data => data.length ≤ BLE_HCI_MAX_ADV_DATA_LEN
  | .advFields req => req.Requestable
  | .addSvcs svcs => ∀ svc ∈ svcs, SvcRequestable svc
  | .accessStatus _ data => data.length ≤ BLE_ATT_ATTR_MAX_LEN
  | .notify req => req.data.length ≤ BLE_ATT_ATTR_MAX_LEN + 3
  | .findChr svcUuid chrUuid => svcUuid.Requestable ∧ chrUuid.Requestable
  | .smInjectIo _ io => io.Requestable
  | _ => True

-- What the daemon is to do.
def action (seq : UInt32) : Command → Action
  | .sync => fun host rsp world =>
      .ok ⟨{ rsp with status := if host.synced then 1 else 0 }, world, [.hsSynced]⟩
  | .connect req => gapConnect req seq
  | .terminate connHandle hciReason => gapTerminate connHandle hciReason
  | .discAllSvcs connHandle => gattcDiscAllSvcs connHandle seq
  | .discSvcUuid connHandle svcUuid => gattcDiscSvcUuid connHandle svcUuid seq
  | .discAllChrs range => gattcDiscAllChrs range seq
  | .discChrUuid range chrUuid => gattcDiscChrUuid range chrUuid seq
  | .discAllDscs range => gattcDiscAllDscs range seq
  | .write req => gattcWrite req seq
  | .writeCmd req => gattcWriteNoRsp req
  | .exchangeMtu connHandle => gattcExchangeMtu connHandle seq
  | .genRandAddr nrpa => idGenRandAddr (if nrpa then 1 else 0)
  | .setRandAddr addr => idSetRandAddr addr
  | .connCancel => gapConnCancel
  | .scan req => gapScan req seq
  | .scanCancel => gapScanCancel
  | .setPreferredMtu mtu => gattcSetPreferredMtu mtu
  | .encInitiate connHandle => gapSecurityInitiate connHandle
  | .connFind connHandle => gapConnFind connHandle
  | .reset => fun _ rsp world => .ok ⟨rsp, world, [.hsSchedReset 0]⟩
  | .advStart req => gapAdvStart req seq
  | .advStop => gapAdvStop
  | .advSetData data => gapAdvSetData data
  | .advRspSetData data => gapAdvRspSetData data
  | .advFields req => gapAdvFields req
  | .clearSvcs => gattsClearSvcs
  | .addSvcs svcs => gattsAddSvcs svcs
  | .commitSvcs => gattsCommitSvcs
  | .accessStatus attStatus data => gattsAccessStatus attStatus data data.length
  | .notify req => gattcNotify req
  | .findChr svcUuid chrUuid => gattsFindChr svcUuid chrUuid
  | .smInjectIo connHandle io => callStatus (.smInjectIo connHandle io)

end Command

-- The members of a request, with the encoders of bhd_util.c and the names of its maps.
section Members

variable (uuidToStr : Uuid → Text)

def numberItem (n : Int) : Option Json := some (.number n)

def flagItem (value : Bool) : Option Json := some (Json.createBool value)

def kvItem {α : Type} [DecidableEq α] (map : List (String × α)) (val : α) : Option Json :=
  (kvRevFind map val).map fun name => .string (ascii name)

def uuidItem (uuid : Uuid) : Option Json :=
  (createUuid uuidToStr (.known uuid)).toOption

-- Without descriptors.
def chrTable (chr : Gatts.Chr) : List (String × Option Json) :=
  [("uuid", uuidItem uuidToStr chr.uuid), ("flags", numberItem chr.flags.toNat),
    ("min_key_size", numberItem chr.minKeySize.toNat), ("descriptors", none)]

def createChr (chr : Gatts.Chr) : Json :=
  .object (tableMembers (chrTable uuidToStr chr))

def svcTable (svc : Gatts.Svc) : List (String × Option Json) :=
  [("type", kvItem svcTypeMap svc.type), ("uuid", uuidItem uuidToStr svc.uuid),
    ("characteristics", some (.array (svc.chrs.map (createChr uuidToStr))))]

def createSvc (svc : Gatts.Svc) : Json :=
  .object (tableMembers (svcTable uuidToStr svc))

def HandleRange.table (range : HandleRange) : List (String × Option Json) :=
  [("conn_handle", numberItem range.connHandle.toNat),
    ("start_handle", numberItem range.startHandle.toNat),
    ("end_handle", numberItem range.endHandle.toNat)]

def WriteReq.table (req : WriteReq) : List (String × Option Json) :=
  [("conn_handle", numberItem req.connHandle.toNat),
    ("attr_handle", numberItem req.attrHandle.toNat),
    ("data", some (createByteString req.data))]

def ConnectReq.table (req : ConnectReq) : List (String × Option Json) :=
  [("own_addr_type", kvItem addrTypeMap req.ownAddrType),
    ("peer_addr_type", kvItem addrTypeMap (req.peerAddr.type.toNat : Int)),
    ("peer_addr", some (createAddr req.peerAddr.val)),
    ("duration_ms", numberItem req.durationMs.toInt),
    ("scan_itvl", numberItem req.scanItvl.toNat),
    ("scan_window", numberItem req.scanWindow.toNat),
    ("itvl_min", numberItem req.itvlMin.toNat),
    ("itvl_max", numberItem req.itvlMax.toNat),
    ("latency", numberItem req.latency.toNat),
    ("supervision_timeout", numberItem req.supervisionTimeout.toNat),
    ("min_ce_len", numberItem req.minCeLen.toNat),
    ("max_ce_len", numberItem req.maxCeLen.toNat)]

def ScanReq.table (req : ScanReq) : List (String × Option Json) :=
  [("own_addr_type", kvItem addrTypeMap (req.ownAddrType.toNat : Int)),
    ("duration_ms", numberItem req.durationMs.toInt),
    ("itvl", numberItem req.itvl.toNat),
    ("window", numberItem req.window.toNat),
    ("filter_policy", kvItem scanFilterPolicyMap (req.filterPolicy.toNat : Int)),
    ("limited", flagItem req.limited),
    ("passive", flagItem req.passive),
    ("filter_duplicates", flagItem req.filterDuplicates)]

def AdvStartReq.table (req : AdvStartReq) : List (String × Option Json) :=
  [("own_addr_type", kvItem addrTypeMap (req.ownAddrType.toNat : Int)),
    ("peer_addr_type", if req.peerAddr = BleAddr.zero then none
      else kvItem addrTypeMap (req.peerAddr.type.toNat : Int)),
    ("peer_addr", given (req.peerAddr ≠ BleAddr.zero) (createAddr req.peerAddr.val)),
    ("duration_ms", numberItem req.durationMs.toInt),
    ("conn_mode", kvItem advConnModeMap (req.connMode.toNat : Int)),
    ("disc_mode", kvItem advDiscModeMap (req.discMode.toNat : Int)),
    ("itvl_min", numberItem req.itvlMin.toNat),
    ("itvl_max", numberItem req.itvlMax.toNat),
    ("channel_map", numberItem req.channelMap.toNat),
    ("filter_policy", kvItem advFilterPolicyMap (req.filterPolicy.toNat : Int)),
    ("high_duty_cycle", flagItem req.highDutyCycle)]

def SmIo.table : SmIo → List (String × Option Json)
  | .oob data => [("oob_data", some (createByteString data))]
  | .input passkey => [("passkey", numberItem passkey.toNat)]
  | .disp passkey => [("passkey", numberItem passkey.toNat)]
  | .numcmp accept => [("numcmp_accept", flagItem (accept = 1))]

def Command.table : Command → List (String × Option Json)
  | .connect req => req.table
  | .terminate connHandle hciReason =>
      [("conn_handle", numberItem connHandle.toNat), ("hci_reason", numberItem hciReason.toNat)]
  | .discAllSvcs connHandle => [("conn_handle", numberItem connHandle.toNat)]
  | .discSvcUuid connHandle svcUuid =>
      [("conn_handle", numberItem connHandle.toNat), ("svc_uuid", uuidItem uuidToStr svcUuid)]
  | .discAllChrs range => range.table
  | .discChrUuid range chrUuid =>
      range.table ++ [("chr_uuid", uuidItem uuidToStr chrUuid)]
  | .discAllDscs range => range.table
  | .write req => req.table
  | .writeCmd req => req.table
  | .exchangeMtu connHandle => [("conn_handle", numberItem connHandle.toNat)]
  | .genRandAddr nrpa => [("nrpa", flagItem nrpa)]
  | .setRandAddr addr => [("addr", some (createAddr addr))]
  | .scan req => req.table
  | .setPreferredMtu mtu => [("mtu", numberItem mtu.toNat)]
  | .encInitiate connHandle => [("conn_handle", numberItem connHandle.toNat)]
  | .connFind connHandle => [("conn_handle", numberItem connHandle.toNat)]
  | .advStart req => req.table
  | .advSetData data => [("data", some (createByteString data))]
  | .advRspSetData data => [("data", some (createByteString data))]
  | .advFields req => fieldTable uuidToStr req
  | .addSvcs svcs => [("services", some (.array (svcs.map (createSvc uuidToStr))))]
  | .accessStatus attStatus data =>
      [("att_status", numberItem attStatus.toNat), ("data", some (createByteString data))]
  | .notify req => req.table
  | .findChr svcUuid chrUuid =>
      [("svc_uuid", uuidItem uuidToStr svcUuid), ("chr_uuid", uuidItem uuidToStr chrUuid)]
  | .smInjectIo connHandle io =>
      [("conn_handle", numberItem connHandle.toNat),
        ("action", kvItem smPasskeyActionMap io.action)] ++ io.table
  | _ => []

def headerTable (type : MsgType) (seq : UInt32) : List (String × Option Json) :=
  [("op", kvItem opMap MsgOp.req), ("type", kvItem typeMap type), ("seq", numberItem seq.toNat)]

-- The root has these members, in any order and among others.
def Command.WrittenIn (c : Command) (seq : UInt32) (root : Json) : Prop :=
  ∀ name item, (name, item) ∈ headerTable c.type seq ++ c.table uuidToStr →
    root.getObjectItem name = item

def Command.request (c : Command) (seq : UInt32) : Json :=
  .object (tableMembers (headerTable c.type seq ++ c.table uuidToStr))

end Members

end Blehostd
