import Blehostd.Responses

namespace Blehostd

-- A handler that leaves through an exit still asks for a response, with a short
-- text.
structure Exit.Sent (e : Exit) : Prop where
  ret : e.ret ≠ 0
  msg : e.msg.length ≤ 64

theorem Exit.build_sent (msg : String) (hmsg : msg.length ≤ 64) (rc : ErrCode) :
    (Exit.build msg rc).Sent :=
  ⟨Int.one_ne_zero, hmsg⟩

theorem Exit.fill_sent (msg : String) (hmsg : msg.length ≤ 64) (rc : ErrCode) :
    (Exit.fill msg rc).Sent :=
  ⟨Int.one_ne_zero, hmsg⟩

theorem Exit.buildRc_sent (msg : String) (hmsg : msg.length ≤ 64) (rc : ErrCode) :
    (Exit.buildRc msg rc).Sent :=
  ⟨rc.code_ne_zero, hmsg⟩

theorem Exit.fillRc_sent (msg : String) (hmsg : msg.length ≤ 64) (rc : ErrCode) :
    (Exit.fillRc msg rc).Sent :=
  ⟨rc.code_ne_zero, hmsg⟩

theorem Exit.own_sent (rc : ErrCode) : (Exit.own rc).Sent :=
  ⟨Int.one_ne_zero, Nat.zero_le _⟩

abbrev StrictReq {α : Type} (d : ReqDecoder α) : Prop := Strict Exit.Sent d

section Rules

variable {α β : Type}

theorem strict_done (a : α) : StrictReq (pure a) :=
  Decoder.strict_pure a

theorem strict_field (parent : Json) (name : String) (f : Json → String → Except ErrCode α)
    (exit : ErrCode → Exit) (rest : α → ReqDecoder β) (hexit : ∀ rc, (exit rc).Sent)
    (hrest : ∀ a, StrictReq (rest a)) : StrictReq (need parent name f exit >>= rest) :=
  Decoder.strict_bind _ _ (strict_need parent name f exit hexit) hrest

theorem strict_optional (parent : Json) (name : String) (f : Json → String → Except ErrCode α)
    (exit : ErrCode → Exit) (rest : Option α → ReqDecoder β) (hexit : ∀ rc, (exit rc).Sent)
    (hrest : ∀ a, StrictReq (rest a)) : StrictReq (want parent name f exit >>= rest) :=
  Decoder.strict_bind _ _ (strict_want parent name f exit hexit) hrest

end Rules

theorem connect_strict (r : Req) : StrictReq (connectReqRun r) := by
  unfold connectReqRun
  repeat
    apply strict_field _ _ _ _ _ (Exit.build_sent _ (by decide))
    intro _
  exact strict_done _

theorem needHandle_strict (r : Req) (name msg : String) (exit : String → ErrCode → Exit)
    (hexit : ∀ rc, (exit msg rc).Sent) : StrictReq (needHandle r name msg exit) := by
  apply strict_field _ _ _ _ _ hexit
  intro _
  exact strict_done _

theorem strict_handle {β : Type} (r : Req) (name msg : String) (exit : String → ErrCode → Exit)
    (rest : UInt16 → ReqDecoder β) (hexit : ∀ rc, (exit msg rc).Sent)
    (hrest : ∀ a, StrictReq (rest a)) : StrictReq (needHandle r name msg exit >>= rest) :=
  Decoder.strict_bind _ _ (needHandle_strict r name msg exit hexit) hrest

theorem terminate_strict (r : Req) : StrictReq (terminateReqRun r) := by
  apply strict_handle _ _ _ _ _ (Exit.fill_sent _ (by decide))
  intro _
  apply strict_field _ _ _ _ _ (Exit.fill_sent _ (by decide))
  intro _
  exact strict_done _

theorem discAllSvcs_strict (r : Req) : StrictReq (discAllSvcsReqRun r) := by
  apply strict_handle _ _ _ _ _ (Exit.fill_sent _ (by decide))
  intro _
  exact strict_done _

theorem discSvcUuid_strict (r : Req) : StrictReq (discSvcUuidReqRun r) := by
  apply strict_handle _ _ _ _ _ (Exit.fill_sent _ (by decide))
  intro _
  apply strict_field _ _ _ _ _ (Exit.fill_sent _ (by decide))
  intro _
  exact strict_done _

theorem handleRange_strict (r : Req) : StrictReq (handleRangeDec r) := by
  unfold handleRangeDec
  repeat
    apply strict_handle _ _ _ _ _ (Exit.fill_sent _ (by decide))
    intro _
  exact strict_done _

theorem discAllChrs_strict (r : Req) : StrictReq (discAllChrsReqRun r) := by
  apply Decoder.strict_bind _ _ (handleRange_strict r)
  intro _
  exact strict_done _

theorem discChrUuid_strict (r : Req) : StrictReq (discChrUuidReqRun r) := by
  apply Decoder.strict_bind _ _ (handleRange_strict r)
  intro _
  apply strict_field _ _ _ _ _ (Exit.fill_sent _ (by decide))
  intro _
  exact strict_done _

theorem discAllDscs_strict (r : Req) : StrictReq (discAllDscsReqRun r) := by
  apply Decoder.strict_bind _ _ (handleRange_strict r)
  intro _
  exact strict_done _

theorem writeReqDec_strict (r : Req) (attrBufSz : Nat) : StrictReq (writeReqDec r attrBufSz) := by
  unfold writeReqDec
  repeat
    apply strict_handle _ _ _ _ _ (Exit.fill_sent _ (by decide))
    intro _
  apply strict_field _ _ _ _ _ (Exit.fill_sent _ (by decide))
  intro _
  exact strict_done _

theorem write_strict (r : Req) : StrictReq (writeReqRun r) := by
  apply Decoder.strict_bind _ _ (writeReqDec_strict r _)
  intro _
  exact strict_done _

theorem writeCmd_strict (r : Req) : StrictReq (writeCmdReqRun r) := by
  apply Decoder.strict_bind _ _ (writeReqDec_strict r _)
  intro _
  exact strict_done _

theorem exchangeMtu_strict (r : Req) : StrictReq (exchangeMtuReqRun r) := by
  apply strict_handle _ _ _ _ _ (Exit.fillRc_sent _ (by decide))
  intro _
  exact strict_done _

theorem genRandAddr_strict (r : Req) : StrictReq (genRandAddrReqRun r) := by
  apply strict_field _ _ _ _ _ (Exit.fillRc_sent _ (by decide))
  intro _
  exact strict_done _

theorem setRandAddr_strict (r : Req) : StrictReq (setRandAddrReqRun r) := by
  apply strict_field _ _ _ _ _ (Exit.fillRc_sent _ (by decide))
  intro _
  exact strict_done _

theorem scan_strict (r : Req) : StrictReq (scanReqRun r) := by
  unfold scanReqRun
  repeat
    apply strict_field _ _ _ _ _ (Exit.build_sent _ (by decide))
    intro _
  exact strict_done _

theorem setPreferredMtu_strict (r : Req) : StrictReq (setPreferredMtuReqRun r) := by
  apply strict_field _ _ _ _ _ (Exit.build_sent _ (by decide))
  intro _
  exact strict_done _

theorem securityInitiate_strict (r : Req) : StrictReq (securityInitiateReqRun r) := by
  apply strict_handle _ _ _ _ _ (Exit.build_sent _ (by decide))
  intro _
  exact strict_done _

theorem connFind_strict (r : Req) : StrictReq (connFindReqRun r) := by
  apply strict_handle _ _ _ _ _ (Exit.build_sent _ (by decide))
  intro _
  exact strict_done _

theorem peerAddrDec_strict (r : Req) : StrictReq (peerAddrDec r) := by
  apply strict_optional _ _ _ _ _ (Exit.build_sent _ (by decide))
  intro addrType
  cases addrType with
  | none => exact strict_done _
  | some addrType =>
      apply strict_field _ _ _ _ _ (Exit.build_sent _ (by decide))
      intro _
      exact strict_done _

theorem advStart_strict (r : Req) : StrictReq (advStartReqRun r) := by
  apply strict_field _ _ _ _ _ (Exit.build_sent _ (by decide))
  intro _
  apply Decoder.strict_bind _ _ (peerAddrDec_strict r)
  intro _
  repeat
    apply strict_field _ _ _ _ _ (Exit.build_sent _ (by decide))
    intro _
  exact strict_done _

theorem advSetData_strict (r : Req) : StrictReq (advSetDataReqRun r) := by
  apply strict_field _ _ _ _ _ (Exit.fillRc_sent _ (by decide))
  intro _
  exact strict_done _

theorem advRspSetData_strict (r : Req) : StrictReq (advRspSetDataReqRun r) := by
  apply strict_field _ _ _ _ _ (Exit.fillRc_sent _ (by decide))
  intro _
  exact strict_done _

theorem advFlagsDec_strict (r : Req) : StrictReq (advFlagsDec r) := by
  apply strict_optional _ _ _ _ _ (Exit.build_sent _ (by decide))
  intro flags
  cases flags with
  | none => exact strict_done _
  | some u8 =>
      by_cases hzero : UInt8.ofInt u8 = 0
      · simp only [hzero, if_true]
        exact Decoder.strict_leave _ (Exit.build_sent _ (by decide) _)
      · simp only [hzero, if_false]
        exact strict_done _

theorem advTextDec_strict (r : Req) (name msg : String) (hmsg : msg.length ≤ 64) :
    StrictReq (advTextDec r name msg) := by
  apply strict_optional _ _ _ _ _ (Exit.build_sent _ hmsg)
  intro text
  cases text with
  | none => exact strict_done _
  | some s =>
      by_cases hlong : BLE_HS_ADV_MAX_FIELD_SZ < s.length
      · simp only [hlong, if_true]
        exact Decoder.strict_leave _ (Exit.build_sent _ hmsg _)
      · simp only [hlong, if_false]
        exact strict_done _

theorem advBytesDec_strict (r : Req) (name msg : String) (hmsg : msg.length ≤ 64) :
    StrictReq (advBytesDec r name msg) := by
  apply strict_optional _ _ _ _ _ (Exit.build_sent _ hmsg)
  intro _
  exact strict_done _

theorem advFlagDec_strict (r : Req) (name : String) (exit : ErrCode → Exit)
    (hexit : ∀ rc, (exit rc).Sent) : StrictReq (advFlagDec r name exit) := by
  apply Decoder.strict_bind _ _ (strict_wantPair _ _ _ _ hexit)
  intro _
  exact strict_done _

theorem advIntDec_strict (r : Req) (name msg : String) (minval maxval : Int)
    (hmsg : msg.length ≤ 64) :
    StrictReq (advIntDec r name msg minval maxval) := by
  apply Decoder.strict_bind _ _ (strict_wantPair _ _ _ _ (Exit.build_sent _ hmsg))
  intro _
  exact strict_done _

theorem slaveItvlDec_strict (r : Req) : StrictReq (slaveItvlDec r) := by
  apply Decoder.strict_bind _ _ (advIntDec_strict r _ _ _ _ (by decide))
  intro min
  obtain ⟨min, present⟩ := min
  cases present with
  | false => exact strict_done _
  | true =>
      apply strict_field _ _ _ _ _ (Exit.build_sent _ (by decide))
      intro _
      exact strict_done _

theorem advFields_strict (r : Req) : StrictReq (advFieldsReqRun r) := by
  apply Decoder.strict_bind _ _ (advFlagsDec_strict r)
  intro _
  -- The three lists of UUIDs, each with its completeness flag.
  repeat
    apply strict_optional _ _ _ _ _ (Exit.build_sent _ (by decide))
    intro _
    apply Decoder.strict_bind _ _ (advFlagDec_strict r _ _ (Exit.build_sent _ (by decide)))
    intro _
  apply Decoder.strict_bind _ _ (advTextDec_strict r _ _ (by decide))
  intro _
  apply Decoder.strict_bind _ _ (advFlagDec_strict r _ _ (Exit.buildRc_sent _ (by decide)))
  intro _
  apply Decoder.strict_bind _ _ (advIntDec_strict r _ _ _ _ (by decide))
  intro _
  apply Decoder.strict_bind _ _ (slaveItvlDec_strict r)
  intro _
  apply Decoder.strict_bind _ _ (advBytesDec_strict r _ _ (by decide))
  intro _
  apply strict_optional _ _ _ _ _ (Exit.build_sent _ (by decide))
  intro _
  -- Appearance and advertising interval.
  repeat
    apply Decoder.strict_bind _ _ (advIntDec_strict r _ _ _ _ (by decide))
    intro _
  -- Service data of 32-bit and 128-bit UUIDs.
  repeat
    apply Decoder.strict_bind _ _ (advBytesDec_strict r _ _ (by decide))
    intro _
  apply Decoder.strict_bind _ _ (advTextDec_strict r _ _ (by decide))
  intro _
  apply Decoder.strict_bind _ _ (advBytesDec_strict r _ _ (by decide))
  intro _
  exact strict_done _

-- The decoders of a service tree leave with a code and a text, which are any.
abbrev StrictSvc {α : Type} (d : Decoder Lookup SvcErr α) : Prop := Strict (fun _ => True) d

theorem strictSvc_field {α β : Type} (parent : Json) (name : String)
    (f : Json → String → Except ErrCode α) (msg : String) (rest : α → Decoder Lookup SvcErr β)
    (hrest : ∀ a, StrictSvc (rest a)) : StrictSvc (need parent name f (svcErr msg) >>= rest) :=
  Decoder.strict_bind _ _ (strict_need parent name f _ fun _ => trivial) hrest

theorem strictSvc_optional {α β : Type} (parent : Json) (name : String)
    (f : Json → String → Except ErrCode α) (msg : String)
    (rest : Option α → Decoder Lookup SvcErr β) (hrest : ∀ a, StrictSvc (rest a)) :
    StrictSvc (want parent name f (svcErr msg) >>= rest) :=
  Decoder.strict_bind _ _ (strict_want parent name f _ fun _ => trivial) hrest

theorem jsonDsc_strict (parent : Json) : StrictSvc (jsonDsc parent) := by
  unfold jsonDsc
  repeat
    apply strictSvc_field
    intro _
  exact Decoder.strict_pure _

theorem jsonChr_strict (junk : Nat → Gatts.Dsc) (parent : Json) :
    StrictSvc (jsonChr junk parent) := by
  unfold jsonChr
  repeat
    apply strictSvc_field
    intro _
  apply strictSvc_optional
  intro _
  apply Decoder.strict_bind _ _ (Decoder.strict_each _ 0 _ fun _ => jsonDsc_strict)
  intro _
  exact Decoder.strict_pure _

theorem jsonSvc_strict (junk : Nat → Nat → Gatts.Dsc) (parent : Json) :
    StrictSvc (jsonSvc junk parent) := by
  unfold jsonSvc
  repeat
    apply strictSvc_field
    intro _
  apply strictSvc_optional
  intro _
  apply Decoder.strict_bind _ _ (Decoder.strict_each _ 0 _ fun ci => jsonChr_strict (junk ci))
  intro _
  exact Decoder.strict_pure _

theorem addSvcsDec_strict (r : Req) : StrictReq (addSvcsDec r) := by
  apply strict_field _ _ _ _ _ Exit.own_sent
  intro arr
  have heach : StrictSvc (Decoder.each (fun si item => jsonSvc (r.junk.dscs si) item) 0 arr) :=
    Decoder.strict_each _ 0 arr fun si => jsonSvc_strict (r.junk.dscs si)
  exact Decoder.strict_mapExit _ _ heach fun e _ => Exit.own_sent e.1

theorem addSvcs_strict (r : Req) : StrictReq (addSvcsReqRun r) := by
  apply Decoder.strict_bind _ _ (addSvcsDec_strict r)
  intro _
  exact strict_done _

theorem accessStatus_strict (r : Req) : StrictReq (accessStatusReqRun r) := by
  apply strict_field _ _ _ _ _ Exit.own_sent
  intro _
  apply strict_optional _ _ _ _ _ Exit.own_sent
  intro _
  exact strict_done _

theorem findChr_strict (r : Req) : StrictReq (findChrReqRun r) := by
  unfold findChrReqRun
  repeat
    apply strict_field _ _ _ _ _ Exit.own_sent
    intro _
  exact strict_done _

theorem smIoDec_strict (r : Req) (connHandle : UInt16) (action : Int) :
    StrictReq (smIoDec r connHandle action) := by
  unfold smIoDec
  dsimp only
  split_ifs
  · apply strict_field _ _ _ _ _ Exit.own_sent
    intro oobData
    split_ifs
    · exact Decoder.strict_leave _ (Exit.own_sent _)
    · exact strict_done _
  · apply strict_field _ _ _ _ _ Exit.own_sent
    intro _
    exact strict_done _
  · apply strict_field _ _ _ _ _ Exit.own_sent
    intro _
    exact strict_done _
  · exact Decoder.strict_leave _ (Exit.own_sent _)

theorem smInjectIo_strict (r : Req) : StrictReq (smInjectIoReqRun r) := by
  unfold smInjectIoReqRun
  repeat
    apply strict_field _ _ _ _ _ Exit.own_sent
    intro _
  apply Decoder.strict_bind _ _ (smIoDec_strict r _ _)
  intro _
  exact strict_done _

-- Of all handlers only notify goes on after a failed lookup.
theorem reqDispatchFind_strict (type : MsgType) (run : ReqRun)
    (hrun : reqDispatchFind type = some run) (hnotify : type ≠ .notify) (r : Req) :
    StrictReq (run r) := by
  cases type <;> cases hrun
  case sync => exact strict_done _
  case connect => exact connect_strict r
  case terminate => exact terminate_strict r
  case discAllSvcs => exact discAllSvcs_strict r
  case discSvcUuid => exact discSvcUuid_strict r
  case discAllChrs => exact discAllChrs_strict r
  case discChrUuid => exact discChrUuid_strict r
  case discAllDscs => exact discAllDscs_strict r
  case write => exact write_strict r
  case writeCmd => exact writeCmd_strict r
  case exchangeMtu => exact exchangeMtu_strict r
  case genRandAddr => exact genRandAddr_strict r
  case setRandAddr => exact setRandAddr_strict r
  case connCancel => exact strict_done _
  case scan => exact scan_strict r
  case scanCancel => exact strict_done _
  case setPreferredMtu => exact setPreferredMtu_strict r
  case encInitiate => exact securityInitiate_strict r
  case connFind => exact connFind_strict r
  case reset => exact strict_done _
  case advStart => exact advStart_strict r
  case advStop => exact strict_done _
  case advSetData => exact advSetData_strict r
  case advRspSetData => exact advRspSetData_strict r
  case advFields => exact advFields_strict r
  case clearSvcs => exact strict_done _
  case addSvcs => exact addSvcs_strict r
  case commitSvcs => exact strict_done _
  case accessStatus => exact accessStatus_strict r
  case notify => exact absurd rfl hnotify
  case findChr => exact findChr_strict r
  case smInjectIo => exact smInjectIo_strict r

end Blehostd
