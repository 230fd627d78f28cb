import Blehostd.Gatts.Access
import Blehostd.Proto

namespace Blehostd

-- The arguments of ble_hs_adv_set_fields. An empty list stands for the NULL
-- pointer of a field that is left out.
structure HsAdvFields where
  flags : UInt8
  uuids16 : List UInt16
  uuids16IsComplete : Bool
  uuids32 : List UInt32
  uuids32IsComplete : Bool
  uuids128 : List (Vector UInt8 16)
  uuids128IsComplete : Bool
  name : List UInt8
  nameIsComplete : Bool
  txPwrLvl : Int8
  txPwrLvlIsPresent : Bool
  slaveItvlRange : List UInt8
  svcDataUuid16 : List UInt8
  publicTgtAddr : List Addr
  appearance : UInt16
  appearanceIsPresent : Bool
  advItvl : UInt16
  advItvlIsPresent : Bool
  svcDataUuid32 : List UInt8
  svcDataUuid128 : List UInt8
  uri : List UInt8
  mfgData : List UInt8
deriving DecidableEq, Repr

inductive SmIo where
  | oob (data : List UInt8)
  | input (passkey : UInt32)
  | disp (passkey : UInt32)
  | numcmp (accept : UInt8)
deriving DecidableEq, Repr

-- The calls into the host with their arguments. The callbacks are fixed, and
-- their argument is the sequence number of the request.
inductive HostCall where
  | hsSynced
  | gapConnect (req : ConnectReq) (seq : UInt32)
  | gapTerminate (connHandle : UInt16) (hciReason : UInt8)
  | gapConnCancel
  | gapDisc (req : ScanReq) (seq : UInt32)
  | gapDiscCancel
  | gapSecurityInitiate (connHandle : UInt16)
  | gapConnFind (connHandle : UInt16)
  | gapAdvStart (req : AdvStartReq) (seq : UInt32)
  | gapAdvStop
  | gapAdvSetData (data : List UInt8)
  | gapAdvRspSetData (data : List UInt8)
  | hsAdvSetFields (fields : HsAdvFields)
  | hsSchedReset (reason : Int)
  | hsIdGenRnd (nrpa : UInt8)
  | hsIdSetRnd (addr : Addr)
  | hsMbufFromFlat (data : List UInt8)
  | attSetPreferredMtu (mtu : UInt16)
  | gattcDiscAllSvcs (connHandle : UInt16) (seq : UInt32)
  | gattcDiscSvcByUuid (connHandle : UInt16) (uuid : Uuid) (seq : UInt32)
  | gattcDiscAllChrs (range : HandleRange) (seq : UInt32)
  | gattcDiscChrsByUuid (range : HandleRange) (uuid : Uuid) (seq : UInt32)
  | gattcDiscAllDscs (range : HandleRange) (seq : UInt32)
  | gattcWrite (req : WriteReq) (seq : UInt32)
  | gattcWriteNoRsp (req : WriteReq)
  | gattcExchangeMtu (connHandle : UInt16) (seq : UInt32)
  | gattcNotifyCustom (req : WriteReq)
  | gattsReset
  | gattsCountCfg
  | gattsAddSvcs
  | gattsStart
  | gattsFindChr (svcUuid chrUuid : Uuid)
  | smInjectIo (connHandle : UInt16) (io : SmIo)
deriving DecidableEq, Repr

-- What the host and the allocator answer while one request is processed.
structure Host where
  synced : Bool
  result : HostCall → Int32
  mbuf : Bool
  rndAddr : Addr
  connDesc : ConnFindRsp
  advData : AdvData
  defHandle : UInt16
  valHandle : UInt16
  valHandles : Nat → UInt16
  callocSvcs : Bool
  callocChrs : Nat → Bool

-- The GATT tables and the pending access.
structure World where
  tables : Gatts.State
  access : Gatts.Access

def World.initial : World := ⟨Gatts.State.initial, Gatts.Access.initial⟩

-- The response that a request leaves, with the calls made on the way.
structure Answer where
  rsp : Rsp
  world : World
  calls : List HostCall

abbrev Action := Host → Rsp → World → Except Fault Answer

-- The result of the call is the status of the response.
def callStatus (call : HostCall) : Action := fun host rsp world =>
  .ok ⟨{ rsp with status := (host.result call).toInt }, world, [call]⟩

end Blehostd
