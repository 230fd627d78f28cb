import Blehostd.Gatts.Commit
import Blehostd.Json

namespace Blehostd

inductive MsgOp where
  | req | rsp | evt
deriving DecidableEq, Repr

inductive MsgType where
  | err | sync | connect | terminate
  | discAllSvcs | discSvcUuid | discAllChrs | discChrUuid | discAllDscs
  | write | writeCmd | exchangeMtu | genRandAddr | setRandAddr | connCancel
  | scan | scanCancel | setPreferredMtu | encInitiate | connFind | reset
  | advStart | advStop | advSetData | advRspSetData | advFields
  | clearSvcs | addSvcs | commitSvcs | accessStatus | notify | findChr | smInjectIo
  | syncEvt | connectEvt | disconnectEvt | discSvcEvt | discChrEvt | discDscEvt
  | writeAckEvt | notifyRxEvt | mtuChangeEvt | scanEvt | scanTmoEvt | advCompleteEvt
  | encChangeEvt | resetEvt | accessEvt | passkeyEvt
deriving DecidableEq, Repr

structure MsgHdr where
  op : MsgOp
  type : MsgType
  seq : UInt32
deriving DecidableEq, Repr

def BHD_ADDR_TYPE_NONE : UInt8 := 255

def BLE_HS_CONN_HANDLE_NONE : UInt16 := 0xffff

def BLE_HCI_MAX_ADV_DATA_LEN : Nat := 31

def BLE_HS_ADV_MAX_FIELD_SZ : Nat := 29

def BLE_SM_IOACT_OOB : Int := 1
def BLE_SM_IOACT_INPUT : Int := 2
def BLE_SM_IOACT_DISP : Int := 3
def BLE_SM_IOACT_NUMCMP : Int := 4

abbrev Addr := Vector UInt8 6

structure BleAddr where
  type : UInt8
  val : Addr
deriving DecidableEq, Repr

def BleAddr.zero : BleAddr := ⟨0, Vector.replicate 6 0⟩

structure ConnectReq where
  ownAddrType : Int
  peerAddr : BleAddr
  durationMs : Int32
  scanItvl : UInt16
  scanWindow : UInt16
  itvlMin : UInt16
  itvlMax : UInt16
  latency : UInt16
  supervisionTimeout : UInt16
  minCeLen : UInt16
  maxCeLen : UInt16
deriving DecidableEq, Repr

-- disc_all_chrs and disc_all_dscs; disc_chr_uuid has a UUID as well.
structure HandleRange where
  connHandle : UInt16
  startHandle : UInt16
  endHandle : UInt16
deriving DecidableEq, Repr

-- write, write_cmd and notify.
structure WriteReq where
  connHandle : UInt16
  attrHandle : UInt16
  data : List UInt8
deriving DecidableEq, Repr

structure ScanReq where
  ownAddrType : UInt8
  durationMs : Int32
  itvl : UInt16
  window : UInt16
  filterPolicy : UInt8
  limited : Bool
  passive : Bool
  filterDuplicates : Bool
deriving DecidableEq, Repr

structure AdvStartReq where
  ownAddrType : UInt8
  peerAddr : BleAddr
  durationMs : Int32
  connMode : UInt8
  discMode : UInt8
  itvlMin : UInt16
  itvlMax : UInt16
  channelMap : UInt8
  filterPolicy : UInt8
  highDutyCycle : Bool
deriving DecidableEq, Repr

-- Each array is the part of it that its num_ or _len member counts.
structure AdvFieldsReq where
  flags : UInt8
  uuids16 : List UInt16
  uuids16IsComplete : Bool
  uuids32 : List UInt32
  uuids32IsComplete : Bool
  uuids128 : List (Vector UInt8 16)
  uuids128IsComplete : Bool
  name : List UInt8
  nameIsComplete : Bool
  txPwrLvl : Int8
  txPwrLvlIsPresent : Bool
  slaveItvlMin : UInt16
  slaveItvlMax : UInt16
  slaveItvlRangeIsPresent : Bool
  svcDataUuid16 : List UInt8
  publicTgtAddrs : List Addr
  appearance : UInt16
  appearanceIsPresent : Bool
  advItvl : UInt16
  advItvlIsPresent : Bool
  svcDataUuid32 : List UInt8
  svcDataUuid128 : List UInt8
  uri : List UInt8
  mfgData : List UInt8
deriving DecidableEq, Repr

structure SmInjectIoReq where
  connHandle : UInt16
  action : Int
  oobData : List UInt8
  passkey : UInt32
  numcmpAccept : UInt8
deriving DecidableEq, Repr

structure ConnFindRsp where
  connHandle : UInt16
  connItvl : UInt16
  connLatency : UInt16
  supervisionTimeout : UInt16
  role : UInt8
  masterClockAccuracy : UInt8
  ourIdAddr : BleAddr
  peerIdAddr : BleAddr
  ourOtaAddr : BleAddr
  peerOtaAddr : BleAddr
  encrypted : Bool
  authenticated : Bool
  bonded : Bool
  keySize : UInt8
deriving DecidableEq, Repr

def ConnFindRsp.zero : ConnFindRsp :=
  ⟨0, 0, 0, 0, 0, 0, BleAddr.zero, BleAddr.zero, BleAddr.zero, BleAddr.zero, false, false, false, 0⟩

abbrev AdvData := {data : List UInt8 // data.length ≤ BLE_HCI_MAX_ADV_DATA_LEN}

-- What the union of struct bhd_rsp holds behind the int that each of its
-- members starts with. It is cleared before a request is processed.
inductive RspBody where
  | zero
  | msg (text : String)
  | addr (addr : Addr)
  | connFind (rsp : ConnFindRsp)
  | advFields (data : AdvData)
  | commitSvcs (svcs : List Gatts.CommitSvc)
  | findChr (defHandle valHandle : UInt16)

-- The first int of the union is `synced` for a sync response.
structure Rsp where
  hdr : MsgHdr
  status : Int
  body : RspBody

-- bhd_err_fill writes through the err member and leaves the header as it is.
def errFill (status : Int) (msg : String) (rsp : Rsp) : Rsp :=
  { rsp with status := status, body := .msg msg }

def errBuild (status : Int) (msg : String) (rsp : Rsp) : Rsp :=
  { rsp with hdr := { rsp.hdr with op := .rsp, type := .err }, status := status, body := .msg msg }

end Blehostd
