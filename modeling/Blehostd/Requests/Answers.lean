import Blehostd.Gatts.Capacity
import Blehostd.Requests.Strict
import Blehostd.Responses.Size

namespace Blehostd

-- What a handler may do to the response.
structure Rsp.Follows (rsp next : Rsp) : Prop where
  op : rsp.hdr.op = .rsp → next.hdr.op = .rsp
  seq : next.hdr.seq = rsp.hdr.seq
  type : next.hdr.type = rsp.hdr.type ∨ next.hdr.type = .err
  modest : rsp.Modest → next.Modest

theorem Rsp.follows_status (rsp : Rsp) (status : Int) (hlower : -2 ^ 31 ≤ status)
    (hupper : status < 2 ^ 31) : rsp.Follows { rsp with status := status } where
  op h := h
  seq := rfl
  type := Or.inl rfl
  modest h := ⟨hlower, hupper, h.msg, h.svcs⟩

theorem Rsp.follows_body (rsp : Rsp) (status : Int) (body : RspBody) (hlower : -2 ^ 31 ≤ status)
    (hupper : status < 2 ^ 31) (hmsg : errMsg body = "") (hsvcs : commitSvcsOf body = []) :
    rsp.Follows { rsp with status := status, body := body } where
  op h := h
  seq := rfl
  type := Or.inl rfl
  modest _ := ⟨hlower, hupper, by rw [hmsg]; decide, hsvcs⟩

theorem Rsp.follows_errBuild (rsp : Rsp) (status : Int) (msg : String) (hlower : -2 ^ 31 ≤ status)
    (hupper : status < 2 ^ 31) (hmsg : msg.length ≤ 64) : rsp.Follows (errBuild status msg rsp) where
  op _ := rfl
  seq := rfl
  type := Or.inr rfl
  modest _ := ⟨hlower, hupper, hmsg, rfl⟩

theorem result_lower (rc : Int32) : -2 ^ 31 ≤ rc.toInt :=
  rc.le_toInt

theorem result_upper (rc : Int32) : rc.toInt < 2 ^ 31 :=
  rc.toInt_lt

def Answers (action : Action) : Prop :=
  ∀ host rsp world, ∃ answer, action host rsp world = .ok answer ∧ rsp.Follows answer.rsp

theorem callStatus_answers (call : HostCall) : Answers (callStatus call) := by
  intro host rsp world
  exact ⟨_, rfl, rsp.follows_status _ (result_lower _) (result_upper _)⟩

theorem gapConnFind_answers (connHandle : UInt16) : Answers (gapConnFind connHandle) := by
  intro host rsp world
  unfold gapConnFind
  dsimp only
  split_ifs
  · exact ⟨_, rfl, rsp.follows_status _ (result_lower _) (result_upper _)⟩
  · exact ⟨_, rfl, rsp.follows_body _ _ (result_lower _) (result_upper _) rfl rfl⟩

theorem gapAdvFields_answers (r : AdvFieldsReq) : Answers (gapAdvFields r) := by
  intro host rsp world
  unfold gapAdvFields
  dsimp only
  split_ifs
  · exact ⟨_, rfl, rsp.follows_status _ (by decide) (by decide)⟩
  · exact ⟨_, rfl, rsp.follows_body _ _ (result_lower _) (result_upper _) rfl rfl⟩
  · exact ⟨_, rfl, rsp.follows_status _ (result_lower _) (result_upper _)⟩

theorem withMbuf_answers (data : List UInt8) (call : HostCall) : Answers (withMbuf data call) := by
  intro host rsp world
  unfold withMbuf
  split_ifs
  · exact ⟨_, rfl, rsp.follows_status _ (result_lower _) (result_upper _)⟩
  · exact ⟨_, rfl, rsp.follows_errBuild _ _ (by decide) (by decide) (by decide)⟩

theorem idGenRandAddr_answers (nrpa : UInt8) : Answers (idGenRandAddr nrpa) := by
  intro host rsp world
  unfold idGenRandAddr
  dsimp only
  split_ifs
  · exact ⟨_, rfl, rsp.follows_body _ _ (result_lower _) (result_upper _) rfl rfl⟩
  · exact ⟨_, rfl, rsp.follows_status _ (result_lower _) (result_upper _)⟩

theorem smInjectIo_answers (req : SmInjectIoReq) : Answers (smInjectIo req) := by
  intro host rsp world
  unfold smInjectIo
  cases smIoOf req with
  | none => exact ⟨_, rfl, rsp.follows_status _ (by decide) (by decide)⟩
  | some io => exact callStatus_answers _ host rsp world

theorem gattsClearSvcs_answers : Answers gattsClearSvcs := by
  intro host rsp world
  exact ⟨_, rfl, rsp.follows_status _ (by decide) (by decide)⟩

theorem verifyResourceCnt_cases (svcs : List Gatts.Svc) (s : Gatts.State) :
    Gatts.verifyResourceCnt svcs s = 0 ∨ Gatts.verifyResourceCnt svcs s = BLE_HS_ENOMEM := by
  unfold Gatts.verifyResourceCnt
  dsimp only
  split_ifs <;> simp

theorem gattsAddSvcs_of (svcs : List Gatts.Svc) (host : Host) (rsp : Rsp) (world : World)
    (status : Int) (s : Gatts.State) (h : Gatts.addSvcs svcs world.tables = .ok (status, s)) :
    gattsAddSvcs svcs host rsp world =
      .ok ⟨{ rsp with status := status }, { world with tables := s }, []⟩ := by
  simp only [gattsAddSvcs, h, bind, Except.bind]

-- No assert fails on the way.
theorem gattsAddSvcs_answers (svcs : List Gatts.Svc) : Answers (gattsAddSvcs svcs) := by
  intro host rsp world
  rcases Gatts.addSvcs_total svcs world.tables with ⟨hrc, hadd⟩ | ⟨s', hadd⟩
  · have hnomem : Gatts.verifyResourceCnt svcs world.tables = BLE_HS_ENOMEM :=
      (verifyResourceCnt_cases svcs world.tables).resolve_left hrc
    rw [hnomem] at hadd
    exact ⟨_, gattsAddSvcs_of svcs host rsp world _ _ hadd,
      rsp.follows_status _ (by decide) (by decide)⟩
  · exact ⟨_, gattsAddSvcs_of svcs host rsp world _ _ hadd,
      rsp.follows_status _ (by decide) (by decide)⟩

theorem setAccessResult_status (attStatus : UInt8) (data : Option (List UInt8)) (dataLen : Int)
    (a : Gatts.Access) : (Gatts.setAccessResult attStatus data dataLen a).1 = 0 ∨
      (Gatts.setAccessResult attStatus data dataLen a).1 = SYS_ENOENT := by
  by_cases hfree : a.attStatus = BHD_GATTS_ACCESS_STATUS_NONE
  · left
    cases data <;> simp [Gatts.setAccessResult, Gatts.Access.store, hfree]
  · right
    simp [Gatts.setAccessResult, Gatts.Access.store, hfree, SYS_ENOENT]

theorem gattsAccessStatus_answers (attStatus : UInt8) (data : List UInt8) (dataLen : Int) :
    Answers (gattsAccessStatus attStatus data dataLen) := by
  intro host rsp world
  have hstatus := setAccessResult_status attStatus (some data) dataLen world.access
  unfold gattsAccessStatus
  generalize Gatts.setAccessResult attStatus (some data) dataLen world.access = result at hstatus ⊢
  obtain ⟨status, access⟩ := result
  rcases hstatus with rfl | rfl
  · exact ⟨_, rfl, rsp.follows_status _ (by decide) (by decide)⟩
  · exact ⟨_, rfl, rsp.follows_status _ (by decide) (by decide)⟩

theorem gattsFindChr_answers (svcUuid chrUuid : Uuid) : Answers (gattsFindChr svcUuid chrUuid) := by
  intro host rsp world
  unfold gattsFindChr
  dsimp only
  split_ifs
  · exact ⟨_, rfl, rsp.follows_body _ _ (result_lower _) (result_upper _) rfl rfl⟩
  · exact ⟨_, rfl, rsp.follows_status _ (result_lower _) (result_upper _)⟩

theorem sync_answers (r : Req) : (syncReqRun r).Returns Answers := by
  apply Decoder.returns_pure
  intro host rsp world
  refine ⟨_, rfl, ?_⟩
  by_cases hsynced : host.synced
  · rw [hsynced]
    exact rsp.follows_status _ (by decide) (by decide)
  · rw [Bool.eq_false_iff.mpr hsynced]
    exact rsp.follows_status _ (by decide) (by decide)

theorem reset_answers (r : Req) : (resetReqRun r).Returns Answers := by
  apply Decoder.returns_pure
  intro host rsp world
  exact ⟨_, rfl, fun h => h, rfl, Or.inl rfl, fun h => h⟩

theorem returns_done {P : Action → Prop} (action : Action) (h : P action) :
    Decoder.Returns P (pure action : ReqDecoder Action) :=
  Decoder.returns_pure action h

theorem returns_after {α : Type} {P : Action → Prop} (d : ReqDecoder α)
    (rest : α → ReqDecoder Action) (h : ∀ a, Decoder.Returns P (rest a)) :
    Decoder.Returns P (d >>= rest) :=
  Decoder.returns_bind d rest fun a _ => h a

-- commit_svcs is left out: it can run into a NULL pointer.
theorem reqDispatchFind_answers (type : MsgType) (run : ReqRun)
    (hrun : reqDispatchFind type = some run) (hcommit : type ≠ .commitSvcs) (r : Req) :
    (run r).Returns Answers := by
  cases type <;> cases hrun
  case sync => exact sync_answers r
  case reset => exact reset_answers r
  case commitSvcs => exact absurd rfl hcommit
  all_goals
    repeat
      apply returns_after
      intro _
    apply returns_done
  case write => exact withMbuf_answers _ _
  case writeCmd => exact withMbuf_answers _ _
  case genRandAddr => exact idGenRandAddr_answers _
  case connFind => exact gapConnFind_answers _
  case advFields => exact gapAdvFields_answers _
  case clearSvcs => exact gattsClearSvcs_answers
  case addSvcs => exact gattsAddSvcs_answers _
  case accessStatus => exact gattsAccessStatus_answers _ _ _
  case notify => exact withMbuf_answers _ _
  case findChr => exact gattsFindChr_answers _ _
  case smInjectIo => exact smInjectIo_answers _
  all_goals exact callStatus_answers _

end Blehostd
