import Blehostd.Host

namespace Blehostd

def gapConnect (req : ConnectReq) (seq : UInt32) : Action :=
  callStatus (.gapConnect req seq)

def gapTerminate (connHandle : UInt16) (hciReason : UInt8) : Action :=
  callStatus (.gapTerminate connHandle hciReason)

def gapConnCancel : Action :=
  callStatus .gapConnCancel

def gapScan (req : ScanReq) (seq : UInt32) : Action :=
  callStatus (.gapDisc req seq)

def gapScanCancel : Action :=
  callStatus .gapDiscCancel

def gapSecurityInitiate (connHandle : UInt16) : Action :=
  callStatus (.gapSecurityInitiate connHandle)

def gapConnFind (connHandle : UInt16) : Action := fun host rsp world =>
  let rc := (host.result (.gapConnFind connHandle)).toInt
  let rsp := { rsp with status := rc }
  if rc ≠ 0 then .ok ⟨rsp, world, [.gapConnFind connHandle]⟩
  else
    let body := RspBody.connFind { host.connDesc with connHandle := connHandle }
    .ok ⟨{ rsp with body := body }, world, [.gapConnFind connHandle]⟩

def gapAdvStart (req : AdvStartReq) (seq : UInt32) : Action :=
  callStatus (.gapAdvStart req seq)

def gapAdvStop : Action :=
  callStatus .gapAdvStop

def gapAdvSetData (data : List UInt8) : Action :=
  callStatus (.gapAdvSetData data)

def gapAdvRspSetData (data : List UInt8) : Action :=
  callStatus (.gapAdvRspSetData data)

def putBe16 (value : UInt16) : List UInt8 :=
  [(value >>> 8).toUInt8, value.toUInt8]

-- The field list that bhd_gap_adv_fields builds. Flags that belong to an empty
-- list stay at the 0 of the cleared structure.
def advFieldsOf (r : AdvFieldsReq) : HsAdvFields :=
  { flags := r.flags
    uuids16 := r.uuids16
    uuids16IsComplete := 0 < r.uuids16.length && r.uuids16IsComplete
    uuids32 := r.uuids32
    uuids32IsComplete := 0 < r.uuids32.length && r.uuids32IsComplete
    uuids128 := r.uuids128
    uuids128IsComplete := 0 < r.uuids128.length && r.uuids128IsComplete
    name := r.name
    nameIsComplete := 0 < r.name.length && r.nameIsComplete
    txPwrLvl := r.txPwrLvl
    txPwrLvlIsPresent := r.txPwrLvlIsPresent
    slaveItvlRange :=
      if r.slaveItvlRangeIsPresent then putBe16 r.slaveItvlMin ++ putBe16 r.slaveItvlMax else []
    svcDataUuid16 := r.svcDataUuid16
    publicTgtAddr := r.publicTgtAddrs
    appearance := r.appearance
    appearanceIsPresent := r.appearanceIsPresent
    advItvl := r.advItvl
    advItvlIsPresent := r.advItvlIsPresent
    svcDataUuid32 := r.svcDataUuid32
    svcDataUuid128 := r.svcDataUuid128
    uri := r.uri
    mfgData := r.mfgData }

def gapAdvFields (r : AdvFieldsReq) : Action := fun host rsp world =>
  if BLE_HS_ADV_MAX_FIELD_SZ / 2 < r.uuids16.length ∨
      BLE_HS_ADV_MAX_FIELD_SZ / 4 < r.uuids32.length ∨
      BLE_HS_ADV_MAX_FIELD_SZ / 16 < r.uuids128.length then
    .ok ⟨{ rsp with status := BLE_HS_EINVAL }, world, []⟩
  else
    let call := HostCall.hsAdvSetFields (advFieldsOf r)
    let rc := (host.result call).toInt
    let rsp := { rsp with status := rc }
    if rc = 0 then .ok ⟨{ rsp with body := .advFields host.advData }, world, [call]⟩
    else .ok ⟨rsp, world, [call]⟩

def gattcDiscAllSvcs (connHandle : UInt16) (seq : UInt32) : Action :=
  callStatus (.gattcDiscAllSvcs connHandle seq)

def gattcDiscSvcUuid (connHandle : UInt16) (svcUuid : Uuid) (seq : UInt32) : Action :=
  callStatus (.gattcDiscSvcByUuid connHandle svcUuid seq)

def gattcDiscAllChrs (range : HandleRange) (seq : UInt32) : Action :=
  callStatus (.gattcDiscAllChrs range seq)

def gattcDiscChrUuid (range : HandleRange) (chrUuid : Uuid) (seq : UInt32) : Action :=
  callStatus (.gattcDiscChrsByUuid range chrUuid seq)

def gattcDiscAllDscs (range : HandleRange) (seq : UInt32) : Action :=
  callStatus (.gattcDiscAllDscs range seq)

-- write, write_cmd and notify copy their data into an mbuf first.
def withMbuf (data : List UInt8) (call : HostCall) : Action := fun host rsp world =>
  if host.mbuf then
    .ok ⟨{ rsp with status := (host.result call).toInt }, world, [.hsMbufFromFlat data, call]⟩
  else
    .ok ⟨errBuild SYS_ENOMEM "no mbufs available" rsp, world, [.hsMbufFromFlat data]⟩

def gattcWrite (req : WriteReq) (seq : UInt32) : Action :=
  withMbuf req.data (.gattcWrite req seq)

def gattcWriteNoRsp (req : WriteReq) : Action :=
  withMbuf req.data (.gattcWriteNoRsp req)

def gattcExchangeMtu (connHandle : UInt16) (seq : UInt32) : Action :=
  callStatus (.gattcExchangeMtu connHandle seq)

def gattcSetPreferredMtu (mtu : UInt16) : Action :=
  callStatus (.attSetPreferredMtu mtu)

def gattcNotify (req : WriteReq) : Action :=
  withMbuf req.data (.gattcNotifyCustom req)

def idGenRandAddr (nrpa : UInt8) : Action := fun host rsp world =>
  let rc := (host.result (.hsIdGenRnd nrpa)).toInt
  let body := if rc = 0 then .addr host.rndAddr else rsp.body
  .ok ⟨{ rsp with status := rc, body := body }, world, [.hsIdGenRnd nrpa]⟩

def idSetRandAddr (addr : Addr) : Action :=
  callStatus (.hsIdSetRnd addr)

-- io.action is one of the four, or the host is not called.
def smIoOf (req : SmInjectIoReq) : Option SmIo :=
  if req.action = BLE_SM_IOACT_OOB then some (.oob req.oobData)
  else if req.action = BLE_SM_IOACT_INPUT then some (.input req.passkey)
  else if req.action = BLE_SM_IOACT_DISP then some (.disp req.passkey)
  else if req.action = BLE_SM_IOACT_NUMCMP then some (.numcmp req.numcmpAccept)
  else none

def smInjectIo (req : SmInjectIoReq) : Action := fun host rsp world =>
  match smIoOf req with
  | none => .ok ⟨{ rsp with status := BLE_HS_EINVAL }, world, []⟩
  | some io => callStatus (.smInjectIo req.connHandle io) host rsp world

def gattsClearSvcs : Action := fun host rsp world =>
  let (status, tables) := Gatts.clearSvcs (host.result .gattsReset).toInt world.tables
  .ok ⟨{ rsp with status := status }, { world with tables := tables }, [.gattsReset]⟩

def gattsAddSvcs (svcs : List Gatts.Svc) : Action := fun _ rsp world => do
  let (status, tables) ← Gatts.addSvcs svcs world.tables
  .ok ⟨{ rsp with status := status }, { world with tables := tables }, []⟩

def commitEnv (host : Host) : Gatts.CommitEnv :=
  { countCfg := (host.result .gattsCountCfg).toInt
    addSvcs := (host.result .gattsAddSvcs).toInt
    start := (host.result .gattsStart).toInt
    valHandles := host.valHandles
    callocSvcs := host.callocSvcs
    callocChrs := host.callocChrs }

-- The calls of bhd_gatts_commit_svcs up to the first that fails.
def commitCalls (env : Gatts.CommitEnv) (s : Gatts.State) : List HostCall :=
  if s.numSvcs = 0 then [.gattsStart]
  else if env.countCfg ≠ 0 then [.gattsCountCfg]
  else if env.addSvcs ≠ 0 then [.gattsCountCfg, .gattsAddSvcs]
  else [.gattsCountCfg, .gattsAddSvcs, .gattsStart]

def gattsCommitSvcs : Action := fun host rsp world => do
  let env := commitEnv host
  let (commit, tables) ← Gatts.commitSvcs env world.tables
  .ok ⟨{ rsp with status := commit.status, body := .commitSvcs commit.svcs },
    { world with tables := tables }, commitCalls env world.tables⟩

def gattsAccessStatus (attStatus : UInt8) (data : List UInt8) (dataLen : Int) : Action :=
  fun _ rsp world =>
    let (status, access) := Gatts.setAccessResult attStatus (some data) dataLen world.access
    .ok ⟨{ rsp with status := status }, { world with access := access }, []⟩

-- The host writes the handles when it finds the characteristic.
def gattsFindChr (svcUuid chrUuid : Uuid) : Action := fun host rsp world =>
  let call := HostCall.gattsFindChr svcUuid chrUuid
  let rc := (host.result call).toInt
  let body := if rc = 0 then .findChr host.defHandle host.valHandle else rsp.body
  .ok ⟨{ rsp with status := rc, body := body }, world, [call]⟩

end Blehostd
