import Blehostd.Requests.AdvFields

namespace Blehostd

-- The members that a request of each type is made of, behind those of its header.
def MsgType.memberNames : MsgType → List String
  | .connect => ["own_addr_type", "peer_addr_type", "peer_addr", "duration_ms", "scan_itvl",
      "scan_window", "itvl_min", "itvl_max", "latency", "supervision_timeout", "min_ce_len",
      "max_ce_len"]
  | .terminate => ["conn_handle", "hci_reason"]
  | .discAllSvcs => ["conn_handle"]
  | .discSvcUuid => ["conn_handle", "svc_uuid"]
  | .discAllChrs => ["conn_handle", "start_handle", "end_handle"]
  | .discChrUuid => ["conn_handle", "start_handle", "end_handle", "chr_uuid"]
  | .discAllDscs => ["conn_handle", "start_handle", "end_handle"]
  | .write => ["conn_handle", "attr_handle", "data"]
  | .writeCmd => ["conn_handle", "attr_handle", "data"]
  | .exchangeMtu => ["conn_handle"]
  | .genRandAddr => ["nrpa"]
  | .setRandAddr => ["addr"]
  | .scan => ["own_addr_type", "duration_ms", "itvl", "window", "filter_policy", "limited",
      "passive", "filter_duplicates"]
  | .setPreferredMtu => ["mtu"]
  | .encInitiate => ["conn_handle"]
  | .connFind => ["conn_handle"]
  | .advStart => ["own_addr_type", "peer_addr_type", "peer_addr", "duration_ms", "conn_mode",
      "disc_mode", "itvl_min", "itvl_max", "channel_map", "filter_policy", "high_duty_cycle"]
  | .advSetData => ["data"]
  | .advRspSetData => ["data"]
  | .advFields => ["flags", "uuids16", "uuids16_is_complete", "uuids32", "uuids32_is_complete",
      "uuids128", "uuids128_is_complete", "name", "name_is_complete", "tx_pwr_lvl",
      "slave_itvl_min", "slave_itvl_max", "svc_data_uuid16", "public_tgt_addrs", "appearance",
      "adv_itvl", "svc_data_uuid32", "svc_data_uuid128", "uri", "mfg_data"]
  | .addSvcs => ["services"]
  | .accessStatus => ["att_status", "data"]
  | .notify => ["conn_handle", "attr_handle", "data"]
  | .findChr => ["svc_uuid", "chr_uuid"]
  | .smInjectIo => ["conn_handle", "action", "oob_data", "passkey", "numcmp_accept"]
  | _ => []

-- Two values that have the same first member of each name.
def SameNamed (names : List String) (root root' : Json) : Prop :=
  ∀ name ∈ names, root.getObjectItem name = root'.getObjectItem name

attribute [simp] ofMember_int ofMember_string ofMember_hexString ofMember_arr ofMember_arrAddr
  ofMember_arrUuid ofMember_arrUint16 ofMember_arrUint32

@[simp] theorem ofMember_addr : OfMember jsonAddr := ⟨_, rfl⟩

@[simp] theorem ofMember_uuid : OfMember jsonUuid := ⟨_, rfl⟩

-- What jsonFlag makes of the member that it finds.
def flagValue : Json → Except ErrCode Int
  | .false => .ok 0
  | .true => .ok 1
  | _ => .error .erange

@[simp] theorem ofMember_flag : OfMember jsonFlag := by
  refine ⟨flagValue, ?_⟩
  funext parent name
  unfold jsonFlag jsonBool member
  cases parent.getObjectItem name with
  | none => rfl
  | some item => cases item <;> rfl

@[simp] theorem ofMember_kv {α : Type} (map : List (String × α)) : OfMember (jsonKv map) :=
  ofMember_bind jsonString ofMember_string _

@[simp] theorem ofMember_addrType : OfMember jsonAddrType := ofMember_kv _

@[simp] theorem ofMember_scanFilterPolicy : OfMember jsonScanFilterPolicy := ofMember_kv _

@[simp] theorem ofMember_advConnMode : OfMember jsonAdvConnMode := ofMember_kv _

@[simp] theorem ofMember_advDiscMode : OfMember jsonAdvDiscMode := ofMember_kv _

@[simp] theorem ofMember_advFilterPolicy : OfMember jsonAdvFilterPolicy := ofMember_kv _

@[simp] theorem ofMember_smPasskeyAction : OfMember jsonSmPasskeyAction := ofMember_kv _

section Fields

variable {α β : Type} {root root' : Json} {name : String} {f : Json → String → Except ErrCode α}
  {exit : ErrCode → Exit}

theorem same_bind {d d' : ReqDecoder α} {rest rest' : α → ReqDecoder β} (hd : d = d')
    (hrest : ∀ a, rest a = rest' a) : d >>= rest = d' >>= rest' := by
  rw [hd, funext hrest]

theorem need_same (hf : OfMember f) (h : root.getObjectItem name = root'.getObjectItem name) :
    (need root name f exit : ReqDecoder α) = need root' name f exit := by
  simp only [need, hf.same root root' name h]

theorem want_same (hf : OfMember f) (h : root.getObjectItem name = root'.getObjectItem name) :
    (want root name f exit : ReqDecoder (Option α)) = want root' name f exit := by
  simp only [want, hf.same root root' name h]

theorem attempt_same (hf : OfMember f) (h : root.getObjectItem name = root'.getObjectItem name) :
    (attempt root name f : ReqDecoder (Option α)) = attempt root' name f := by
  simp only [attempt, hf.same root root' name h]

theorem same_field {rest rest' : α → ReqDecoder β} (hf : OfMember f)
    (h : root.getObjectItem name = root'.getObjectItem name) (hrest : ∀ a, rest a = rest' a) :
    need root name f exit >>= rest = need root' name f exit >>= rest' :=
  same_bind (need_same hf h) hrest

end Fields

section Handlers

attribute [local simp] MsgType.memberNames

variable {root root' : Json} (seq : UInt32) (junk : Junk)

theorem needHandle_same (name msg : String) (exit : String → ErrCode → Exit)
    (h : root.getObjectItem name = root'.getObjectItem name) :
    needHandle ⟨root, seq, junk⟩ name msg exit = needHandle ⟨root', seq, junk⟩ name msg exit :=
  same_field (ofMember_int 0 0xffff) h fun _ => rfl

theorem same_handle {β : Type} {name msg : String} {exit : String → ErrCode → Exit}
    {rest rest' : UInt16 → ReqDecoder β} (h : root.getObjectItem name = root'.getObjectItem name)
    (hrest : ∀ a, rest a = rest' a) :
    needHandle ⟨root, seq, junk⟩ name msg exit >>= rest =
      needHandle ⟨root', seq, junk⟩ name msg exit >>= rest' :=
  same_bind (needHandle_same seq junk name msg exit h) hrest

theorem connect_same (h : SameNamed (MsgType.memberNames .connect) root root') :
    connectReqRun ⟨root, seq, junk⟩ = connectReqRun ⟨root', seq, junk⟩ := by
  unfold connectReqRun
  repeat
    apply same_field (by simp) (h _ (by simp))
    intro _
  rfl

theorem terminate_same (h : SameNamed (MsgType.memberNames .terminate) root root') :
    terminateReqRun ⟨root, seq, junk⟩ = terminateReqRun ⟨root', seq, junk⟩ := by
  apply same_handle seq junk (h _ (by simp))
  intro _
  apply same_field (by simp) (h _ (by simp))
  intro _
  rfl

-- The requests that have a connection handle and nothing else.
theorem connHandle_same {β : Type} (msg : String) (exit : String → ErrCode → Exit)
    (rest : UInt16 → ReqDecoder β) (h : SameNamed ["conn_handle"] root root') :
    needHandle ⟨root, seq, junk⟩ "conn_handle" msg exit >>= rest =
      needHandle ⟨root', seq, junk⟩ "conn_handle" msg exit >>= rest :=
  same_handle seq junk (h _ (by simp)) fun _ => rfl

theorem discSvcUuid_same (h : SameNamed (MsgType.memberNames .discSvcUuid) root root') :
    discSvcUuidReqRun ⟨root, seq, junk⟩ = discSvcUuidReqRun ⟨root', seq, junk⟩ := by
  apply same_handle seq junk (h _ (by simp))
  intro _
  apply same_field (by simp) (h _ (by simp))
  intro _
  rfl

theorem handleRange_same
    (h : SameNamed ["conn_handle", "start_handle", "end_handle"] root root') :
    handleRangeDec ⟨root, seq, junk⟩ = handleRangeDec ⟨root', seq, junk⟩ := by
  unfold handleRangeDec
  repeat
    apply same_handle seq junk (h _ (by simp))
    intro _
  rfl

theorem discAllChrs_same (h : SameNamed (MsgType.memberNames .discAllChrs) root root') :
    discAllChrsReqRun ⟨root, seq, junk⟩ = discAllChrsReqRun ⟨root', seq, junk⟩ :=
  same_bind (handleRange_same seq junk h) fun _ => rfl

theorem discChrUuid_same (h : SameNamed (MsgType.memberNames .discChrUuid) root root') :
    discChrUuidReqRun ⟨root, seq, junk⟩ = discChrUuidReqRun ⟨root', seq, junk⟩ := by
  have hrange : SameNamed ["conn_handle", "start_handle", "end_handle"] root root' :=
    fun name hname => h name (List.mem_append_left ["chr_uuid"] hname)
  apply same_bind (handleRange_same seq junk hrange)
  intro _
  apply same_field (by simp) (h _ (by simp))
  intro _
  rfl

theorem discAllDscs_same (h : SameNamed (MsgType.memberNames .discAllDscs) root root') :
    discAllDscsReqRun ⟨root, seq, junk⟩ = discAllDscsReqRun ⟨root', seq, junk⟩ :=
  same_bind (handleRange_same seq junk h) fun _ => rfl

theorem writeReqDec_same (attrBufSz : Nat)
    (h : SameNamed ["conn_handle", "attr_handle", "data"] root root') :
    writeReqDec ⟨root, seq, junk⟩ attrBufSz = writeReqDec ⟨root', seq, junk⟩ attrBufSz := by
  unfold writeReqDec
  repeat
    apply same_handle seq junk (h _ (by simp))
    intro _
  apply same_field (by simp) (h _ (by simp))
  intro _
  rfl

theorem write_same (h : SameNamed (MsgType.memberNames .write) root root') :
    writeReqRun ⟨root, seq, junk⟩ = writeReqRun ⟨root', seq, junk⟩ :=
  same_bind (writeReqDec_same seq junk _ h) fun _ => rfl

theorem writeCmd_same (h : SameNamed (MsgType.memberNames .writeCmd) root root') :
    writeCmdReqRun ⟨root, seq, junk⟩ = writeCmdReqRun ⟨root', seq, junk⟩ :=
  same_bind (writeReqDec_same seq junk _ h) fun _ => rfl

theorem genRandAddr_same (h : SameNamed (MsgType.memberNames .genRandAddr) root root') :
    genRandAddrReqRun ⟨root, seq, junk⟩ = genRandAddrReqRun ⟨root', seq, junk⟩ :=
  same_field ofMember_flag (h _ (by simp)) fun _ => rfl

theorem setRandAddr_same (h : SameNamed (MsgType.memberNames .setRandAddr) root root') :
    setRandAddrReqRun ⟨root, seq, junk⟩ = setRandAddrReqRun ⟨root', seq, junk⟩ :=
  same_field ofMember_addr (h _ (by simp)) fun _ => rfl

theorem scan_same (h : SameNamed (MsgType.memberNames .scan) root root') :
    scanReqRun ⟨root, seq, junk⟩ = scanReqRun ⟨root', seq, junk⟩ := by
  unfold scanReqRun
  repeat
    apply same_field (by simp) (h _ (by simp))
    intro _
  rfl

theorem setPreferredMtu_same (h : SameNamed (MsgType.memberNames .setPreferredMtu) root root') :
    setPreferredMtuReqRun ⟨root, seq, junk⟩ = setPreferredMtuReqRun ⟨root', seq, junk⟩ :=
  same_field (ofMember_int _ _) (h _ (by simp)) fun _ => rfl

theorem peerAddrDec_same (h : SameNamed ["peer_addr_type", "peer_addr"] root root') :
    peerAddrDec ⟨root, seq, junk⟩ = peerAddrDec ⟨root', seq, junk⟩ := by
  apply same_bind (want_same (by simp) (h _ (by simp)))
  intro addrType
  cases addrType with
  | none => rfl
  | some addrType => exact same_field (by simp) (h _ (by simp)) fun _ => rfl

theorem advStart_same (h : SameNamed (MsgType.memberNames .advStart) root root') :
    advStartReqRun ⟨root, seq, junk⟩ = advStartReqRun ⟨root', seq, junk⟩ := by
  have hpeer : SameNamed ["peer_addr_type", "peer_addr"] root root' := by
    intro name hname
    exact h name (by simp at hname; rcases hname with rfl | rfl <;> simp)
  apply same_field (by simp) (h _ (by simp))
  intro _
  apply same_bind (peerAddrDec_same seq junk hpeer)
  intro _
  repeat
    apply same_field (by simp) (h _ (by simp))
    intro _
  rfl

theorem advSetData_same (h : SameNamed (MsgType.memberNames .advSetData) root root') :
    advSetDataReqRun ⟨root, seq, junk⟩ = advSetDataReqRun ⟨root', seq, junk⟩ :=
  same_field (ofMember_hexString _) (h _ (by simp)) fun _ => rfl

theorem advRspSetData_same (h : SameNamed (MsgType.memberNames .advRspSetData) root root') :
    advRspSetDataReqRun ⟨root, seq, junk⟩ = advRspSetDataReqRun ⟨root', seq, junk⟩ :=
  same_field (ofMember_hexString _) (h _ (by simp)) fun _ => rfl

theorem advFieldsDec_same (h : SameNamed (MsgType.memberNames .advFields) root root') :
    advFieldsDec ⟨root, seq, junk⟩ = advFieldsDec ⟨root', seq, junk⟩ := by
  unfold advFieldsDec
  apply same_bind (advFlagsDec_same _ _ (h _ (by simp)))
  intro _
  -- The three lists of UUIDs, each with its completeness flag.
  repeat
    apply same_bind (advListDec_same _ _ _ _ _ (by simp) (h _ (by simp)))
    intro _
    apply same_bind (advFlagDec_same _ _ _ _ (h _ (by simp)))
    intro _
  apply same_bind (advTextDec_same _ _ _ _ (h _ (by simp)))
  intro _
  apply same_bind (advFlagDec_same _ _ _ _ (h _ (by simp)))
  intro _
  apply same_bind (advIntDec_same _ _ _ _ _ _ (h _ (by simp)))
  intro _
  apply same_bind (slaveItvlDec_same _ _ (h _ (by simp))
    (h _ (by simp)))
  intro _
  apply same_bind (advBytesDec_same _ _ _ _ (h _ (by simp)))
  intro _
  apply same_bind (advListDec_same _ _ _ _ _ (by simp) (h _ (by simp)))
  intro _
  -- Appearance and advertising interval.
  repeat
    apply same_bind (advIntDec_same _ _ _ _ _ _ (h _ (by simp)))
    intro _
  -- Service data of 32-bit and 128-bit UUIDs.
  repeat
    apply same_bind (advBytesDec_same _ _ _ _ (h _ (by simp)))
    intro _
  apply same_bind (advTextDec_same _ _ _ _ (h _ (by simp)))
  intro _
  apply same_bind (advBytesDec_same _ _ _ _ (h _ (by simp)))
  intro _
  rfl

theorem advFields_same (h : SameNamed (MsgType.memberNames .advFields) root root') :
    advFieldsReqRun ⟨root, seq, junk⟩ = advFieldsReqRun ⟨root', seq, junk⟩ := by
  rw [advFieldsReqRun_dec, advFieldsReqRun_dec, advFieldsDec_same seq junk h]

theorem addSvcs_same (h : SameNamed (MsgType.memberNames .addSvcs) root root') :
    addSvcsReqRun ⟨root, seq, junk⟩ = addSvcsReqRun ⟨root', seq, junk⟩ := by
  have hdec : addSvcsDec ⟨root, seq, junk⟩ = addSvcsDec ⟨root', seq, junk⟩ :=
    same_field ofMember_arr (h _ (by simp)) fun _ => rfl
  exact same_bind hdec fun _ => rfl

theorem accessStatus_same (h : SameNamed (MsgType.memberNames .accessStatus) root root') :
    accessStatusReqRun ⟨root, seq, junk⟩ = accessStatusReqRun ⟨root', seq, junk⟩ := by
  apply same_field (by simp) (h _ (by simp))
  intro _
  exact same_bind (want_same (by simp) (h _ (by simp))) fun _ => rfl

theorem notify_same (h : SameNamed (MsgType.memberNames .notify) root root') :
    notifyReqRun ⟨root, seq, junk⟩ = notifyReqRun ⟨root', seq, junk⟩ := by
  unfold notifyReqRun
  repeat
    apply same_field (by simp) (h _ (by simp))
    intro _
  exact same_bind (attempt_same (by simp) (h _ (by simp))) fun _ => rfl

theorem findChr_same (h : SameNamed (MsgType.memberNames .findChr) root root') :
    findChrReqRun ⟨root, seq, junk⟩ = findChrReqRun ⟨root', seq, junk⟩ := by
  unfold findChrReqRun
  repeat
    apply same_field (by simp) (h _ (by simp))
    intro _
  rfl

theorem smIoDec_same (connHandle : UInt16) (action : Int)
    (h : SameNamed (MsgType.memberNames .smInjectIo) root root') :
    smIoDec ⟨root, seq, junk⟩ connHandle action = smIoDec ⟨root', seq, junk⟩ connHandle action := by
  have hoob := h "oob_data" (by simp)
  have hpasskey := h "passkey" (by simp)
  have haccept := h "numcmp_accept" (by simp)
  unfold smIoDec
  split_ifs
  · exact same_field (by simp) hoob fun _ => rfl
  · exact same_field (by simp) hpasskey fun _ => rfl
  · exact same_field (by simp) haccept fun _ => rfl
  · rfl

theorem smInjectIo_same (h : SameNamed (MsgType.memberNames .smInjectIo) root root') :
    smInjectIoReqRun ⟨root, seq, junk⟩ = smInjectIoReqRun ⟨root', seq, junk⟩ := by
  unfold smInjectIoReqRun
  repeat
    apply same_field (by simp) (h _ (by simp))
    intro _
  exact same_bind (smIoDec_same seq junk _ _ h) fun _ => rfl

-- Every handler decodes its own members and no others.
theorem reqDispatchFind_same (type : MsgType) (run : ReqRun)
    (hrun : reqDispatchFind type = some run) (h : SameNamed type.memberNames root root') :
    run ⟨root, seq, junk⟩ = run ⟨root', seq, junk⟩ := by
  cases type <;> cases hrun
  case connect => exact connect_same seq junk h
  case terminate => exact terminate_same seq junk h
  case discAllSvcs => exact connHandle_same seq junk _ _ _ h
  case discSvcUuid => exact discSvcUuid_same seq junk h
  case discAllChrs => exact discAllChrs_same seq junk h
  case discChrUuid => exact discChrUuid_same seq junk h
  case discAllDscs => exact discAllDscs_same seq junk h
  case write => exact write_same seq junk h
  case writeCmd => exact writeCmd_same seq junk h
  case exchangeMtu => exact connHandle_same seq junk _ _ _ h
  case genRandAddr => exact genRandAddr_same seq junk h
  case setRandAddr => exact setRandAddr_same seq junk h
  case scan => exact scan_same seq junk h
  case setPreferredMtu => exact setPreferredMtu_same seq junk h
  case encInitiate => exact connHandle_same seq junk _ _ _ h
  case connFind => exact connHandle_same seq junk _ _ _ h
  case advStart => exact advStart_same seq junk h
  case advSetData => exact advSetData_same seq junk h
  case advRspSetData => exact advRspSetData_same seq junk h
  case advFields => exact advFields_same seq junk h
  case addSvcs => exact addSvcs_same seq junk h
  case accessStatus => exact accessStatus_same seq junk h
  case notify => exact notify_same seq junk h
  case findChr => exact findChr_same seq junk h
  case smInjectIo => exact smInjectIo_same seq junk h
  all_goals rfl

end Handlers

end Blehostd
