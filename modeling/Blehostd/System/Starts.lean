import Blehostd.System
import Blehostd.Daemon.Truthful

namespace Blehostd

-- The calls that a request makes besides the one that starts its procedure.
def HostCall.Quiet (call : HostCall) : Prop :=
  ∀ block, call.callback block = none

-- The callback that belongs to a request, and the block that its argument is.
inductive Holds (req : MsgHdr) : Callback → Option (Nat × DiscArg) → Prop where
  | gapEvent (hkind : req.type.kind = some .gap) : Holds req (.gapEvent req.seq) none
  | discSvc (hkind : req.type.kind = some .discSvc) : Holds req (.discSvc req.seq) none
  | discChr (block : Nat) (handle : UInt16) (hkind : req.type.kind = some .discChr) :
      Holds req (.discChr block) (some (block, ⟨req.seq, handle⟩))
  | discDsc (block : Nat) (handle : UInt16) (hkind : req.type.kind = some .discDsc) :
      Holds req (.discDsc block) (some (block, ⟨req.seq, handle⟩))
  | write (hkind : req.type.kind = some .write) : Holds req (.write req.seq) none
  | mtu (hkind : req.type.kind = some .mtu) : Holds req (.mtu req.seq) none

def HostCall.Starts (req : MsgHdr) (call : HostCall) : Prop :=
  ∀ block, ∃ cb arg, call.callback block = some (cb, arg) ∧ Holds req cb (arg.map fun a => (block, a))

-- What the calls of a request have to do with the status of its response.
inductive Starting (req : MsgHdr) (host : Host) (answer : Answer) : Prop where
  | idle (hquiet : ∀ call ∈ answer.calls, call.Quiet)
      (hnone : req.type.kind = none ∨ answer.rsp.status ≠ 0)
  | call (before : List HostCall) (call : HostCall) (hcalls : answer.calls = before ++ [call])
      (hquiet : ∀ other ∈ before, other.Quiet) (hstarts : call.Starts req)
      (hstatus : answer.rsp.status = (host.result call).toInt)

def StartsProc (req : MsgHdr) (action : Action) : Prop :=
  ∀ host rsp world answer, action host rsp world = .ok answer → Starting req host answer

theorem StartsProc.of_quiet {req : MsgHdr} {action : Action} (hkind : req.type.kind = none)
    (hquiet : ∀ host rsp world answer, action host rsp world = .ok answer →
      ∀ call ∈ answer.calls, call.Quiet) : StartsProc req action := by
  intro host rsp world answer h
  exact .idle (hquiet host rsp world answer h) (Or.inl hkind)

theorem callStatus_starts (req : MsgHdr) (call : HostCall) (hstarts : call.Starts req) :
    StartsProc req (callStatus call) := by
  intro host rsp world answer h
  cases h
  exact .call [] call rfl (by simp) hstarts rfl

theorem callStatus_quiet (req : MsgHdr) (call : HostCall) (hkind : req.type.kind = none)
    (hquiet : call.Quiet) : StartsProc req (callStatus call) := by
  apply StartsProc.of_quiet hkind
  intro host rsp world answer h other hother
  cases h
  obtain rfl := List.mem_singleton.mp hother
  exact hquiet

theorem mbuf_quiet (data : List UInt8) : (HostCall.hsMbufFromFlat data).Quiet :=
  fun _ => rfl

theorem withMbuf_starts (req : MsgHdr) (data : List UInt8) (call : HostCall)
    (hstarts : call.Starts req) : StartsProc req (withMbuf data call) := by
  intro host rsp world answer h
  unfold withMbuf at h
  split_ifs at h <;> cases h
  · refine .call [.hsMbufFromFlat data] call rfl ?_ hstarts rfl
    intro other hother
    obtain rfl := List.mem_singleton.mp hother
    exact mbuf_quiet data
  · refine .idle ?_ (Or.inr (show SYS_ENOMEM ≠ 0 by decide))
    intro other hother
    obtain rfl := List.mem_singleton.mp hother
    exact mbuf_quiet data

theorem withMbuf_quiet (req : MsgHdr) (data : List UInt8) (call : HostCall)
    (hkind : req.type.kind = none) (hquiet : call.Quiet) :
    StartsProc req (withMbuf data call) := by
  apply StartsProc.of_quiet hkind
  intro host rsp world answer h other hother
  unfold withMbuf at h
  split_ifs at h <;> cases h
  · rcases List.mem_cons.mp hother with rfl | hother
    · exact mbuf_quiet data
    · obtain rfl := List.mem_singleton.mp hother
      exact hquiet
  · obtain rfl := List.mem_singleton.mp hother
    exact mbuf_quiet data

theorem quiet_one (call : HostCall) (hquiet : call.Quiet) : ∀ other ∈ [call], other.Quiet := by
  intro other hother
  obtain rfl := List.mem_singleton.mp hother
  exact hquiet

theorem gapConnFind_quiet (req : MsgHdr) (connHandle : UInt16) (hkind : req.type.kind = none) :
    StartsProc req (gapConnFind connHandle) := by
  apply StartsProc.of_quiet hkind
  intro host rsp world answer h
  unfold gapConnFind at h
  dsimp only at h
  split_ifs at h <;> cases h <;> exact quiet_one _ fun _ => rfl

theorem gapAdvFields_quiet (req : MsgHdr) (r : AdvFieldsReq) (hkind : req.type.kind = none) :
    StartsProc req (gapAdvFields r) := by
  apply StartsProc.of_quiet hkind
  intro host rsp world answer h
  unfold gapAdvFields at h
  dsimp only at h
  split_ifs at h <;> cases h
  · simp
  · exact quiet_one _ fun _ => rfl
  · exact quiet_one _ fun _ => rfl

theorem smInjectIo_quiet (req : MsgHdr) (io : SmInjectIoReq) (hkind : req.type.kind = none) :
    StartsProc req (smInjectIo io) := by
  intro host rsp world answer h
  unfold smInjectIo at h
  cases hio : smIoOf io with
  | none =>
      rw [hio] at h
      cases h
      exact .idle (by simp) (Or.inl hkind)
  | some data =>
      rw [hio] at h
      exact callStatus_quiet req _ hkind (fun _ => rfl) host rsp world answer h

theorem gattsAddSvcs_quiet (req : MsgHdr) (svcs : List Gatts.Svc) (hkind : req.type.kind = none) :
    StartsProc req (gattsAddSvcs svcs) := by
  apply StartsProc.of_quiet hkind
  intro host rsp world answer h
  obtain ⟨_, _, hanswer⟩ := (bind_ok _ _ _).mp h
  cases hanswer
  simp

theorem commitCalls_quiet (env : Gatts.CommitEnv) (s : Gatts.State) :
    ∀ call ∈ commitCalls env s, call.Quiet := by
  have hcount : HostCall.gattsCountCfg.Quiet := fun _ => rfl
  have hadd : HostCall.gattsAddSvcs.Quiet := fun _ => rfl
  have hstart : HostCall.gattsStart.Quiet := fun _ => rfl
  unfold commitCalls
  split_ifs <;> simp [hcount, hadd, hstart]

theorem gattsCommitSvcs_quiet (req : MsgHdr) (hkind : req.type.kind = none) :
    StartsProc req gattsCommitSvcs := by
  apply StartsProc.of_quiet hkind
  intro host rsp world answer h
  obtain ⟨_, _, hanswer⟩ := (bind_ok _ _ _).mp h
  cases hanswer
  exact commitCalls_quiet _ _

-- One case for each handler: its procedure is started by its last call, and the result of
-- that call is the status of the response.
theorem reqDispatchFind_starts (req : MsgHdr) (run : ReqRun)
    (hrun : reqDispatchFind req.type = some run) (r : Req) (hseq : r.seq = req.seq) :
    (run r).Returns (StartsProc req) := by
  obtain ⟨op, type, seq⟩ := req
  obtain rfl : r.seq = seq := hseq
  cases type <;> cases hrun
  all_goals
    repeat
      apply returns_after
      intro _
    apply returns_done
  case connect => exact callStatus_starts _ _ fun _ => ⟨_, _, rfl, .gapEvent rfl⟩
  case scan => exact callStatus_starts _ _ fun _ => ⟨_, _, rfl, .gapEvent rfl⟩
  case advStart => exact callStatus_starts _ _ fun _ => ⟨_, _, rfl, .gapEvent rfl⟩
  case discAllSvcs => exact callStatus_starts _ _ fun _ => ⟨_, _, rfl, .discSvc rfl⟩
  case discSvcUuid => exact callStatus_starts _ _ fun _ => ⟨_, _, rfl, .discSvc rfl⟩
  case discAllChrs => exact callStatus_starts _ _ fun _ => ⟨_, _, rfl, .discChr _ _ rfl⟩
  case discChrUuid => exact callStatus_starts _ _ fun _ => ⟨_, _, rfl, .discChr _ _ rfl⟩
  case discAllDscs => exact callStatus_starts _ _ fun _ => ⟨_, _, rfl, .discDsc _ _ rfl⟩
  case exchangeMtu => exact callStatus_starts _ _ fun _ => ⟨_, _, rfl, .mtu rfl⟩
  case write => exact withMbuf_starts _ _ _ fun _ => ⟨_, _, rfl, .write rfl⟩
  case writeCmd => exact withMbuf_quiet _ _ _ rfl fun _ => rfl
  case notify => exact withMbuf_quiet _ _ _ rfl fun _ => rfl
  case connFind => exact gapConnFind_quiet _ _ rfl
  case advFields => exact gapAdvFields_quiet _ _ rfl
  case smInjectIo => exact smInjectIo_quiet _ _ rfl
  case addSvcs => exact gattsAddSvcs_quiet _ _ rfl
  case commitSvcs => exact gattsCommitSvcs_quiet _ rfl
  case sync =>
    apply StartsProc.of_quiet rfl
    intro host rsp world answer h
    cases h
    exact quiet_one _ fun _ => rfl
  case reset =>
    apply StartsProc.of_quiet rfl
    intro host rsp world answer h
    cases h
    exact quiet_one _ fun _ => rfl
  case genRandAddr =>
    apply StartsProc.of_quiet rfl
    intro host rsp world answer h
    cases h
    exact quiet_one _ fun _ => rfl
  case clearSvcs =>
    apply StartsProc.of_quiet rfl
    intro host rsp world answer h
    cases h
    exact quiet_one _ fun _ => rfl
  case findChr =>
    apply StartsProc.of_quiet rfl
    intro host rsp world answer h
    cases h
    exact quiet_one _ fun _ => rfl
  case accessStatus =>
    apply StartsProc.of_quiet rfl
    intro host rsp world answer h
    cases h
    simp
  all_goals exact callStatus_quiet _ _ rfl fun _ => rfl

theorem recorded_ne_zero (root : Option Json) (junk : Junk) (code : Int)
    (h : Recorded root junk code) : code ≠ 0 := by
  unfold Recorded at h
  split at h
  · rw [h]
    decide
  · split at h
    · rw [h]
      exact ErrCode.code_ne_zero _
    · split_ifs at h
      · rw [h]
        decide
      · split at h
        · rw [h]
          decide
        · obtain ⟨e, _, rfl⟩ := h
          exact e.rc.code_ne_zero

-- What the calls of a request start, seen from its header and its response.
inductive Started (hdr : Option MsgHdr) (host : Host) (answer : Answer) : Prop where
  | idle (hquiet : ∀ call ∈ answer.calls, call.Quiet) (hnone : startedBy hdr answer.rsp = [])
  | call (req : MsgHdr) (before : List HostCall) (call : HostCall)
      (hcalls : answer.calls = before ++ [call]) (hquiet : ∀ other ∈ before, other.Quiet)
      (hstarts : call.Starts req)
      (hstarted : startedBy hdr answer.rsp = if host.result call = 0 then [req] else [])

theorem startedBy_failed (hdr : Option MsgHdr) (rsp : Rsp) (hstatus : rsp.status ≠ 0) :
    startedBy hdr rsp = [] := by
  simp [startedBy, hstatus]

theorem HostCall.Starts.kind {req : MsgHdr} {call : HostCall} (h : call.Starts req) :
    req.type.kind.isSome = true := by
  obtain ⟨cb, arg, _, hholds⟩ := h 0
  generalize arg.map (fun a => (0, a)) = cell at hholds
  cases hholds with
  | gapEvent hkind => rw [hkind]; rfl
  | discSvc hkind => rw [hkind]; rfl
  | discChr block handle hkind => rw [hkind]; rfl
  | discDsc block handle hkind => rw [hkind]; rfl
  | write hkind => rw [hkind]; rfl
  | mtu hkind => rw [hkind]; rfl

theorem toInt_zero_iff (rc : Int32) : rc.toInt = 0 ↔ rc = 0 := by
  constructor
  · intro h
    exact Int32.toInt_inj.mp h
  · rintro rfl
    rfl

theorem Starting.started {req : MsgHdr} {host : Host} {answer : Answer}
    (h : Starting req host answer) : Started (some req) host answer := by
  cases h with
  | idle hquiet hnone =>
      refine .idle hquiet ?_
      rcases hnone with hkind | hstatus
      · simp [startedBy, hkind]
      · exact startedBy_failed _ _ hstatus
  | call before call hcalls hquiet hstarts hstatus =>
      refine .call req before call hcalls hquiet hstarts ?_
      have hzero := toInt_zero_iff (host.result call)
      by_cases hrc : host.result call = 0
      · simp [startedBy, hstarts.kind, hstatus, hrc]
      · rw [if_neg hrc]
        exact startedBy_failed _ _ (by rw [hstatus]; exact mt hzero.mp hrc)

theorem reqOutcome_started (root : Option Json) (junk : Junk) (host : Host) (world : World)
    (outcome : Outcome) (h : reqOutcome root junk host world = .ok outcome) :
    Started (root.bind fun json => (msgHdrDec json).toOption) host outcome.answer := by
  rcases reqOutcome_cases root junk host world with
    ⟨rc, msg, seq, hdec, hrecorded⟩ | ⟨json, type, seq, run, rfl, hhdr, hrun, hdec, hrecorded⟩
  · obtain rfl := Except.ok.inj (h.symm.trans hdec)
    have hrc := recorded_ne_zero root junk rc ((hrecorded rc).mpr rfl)
    exact .idle (by simp [errRsp]) (startedBy_failed _ _ hrc)
  · have hroot : ((some json).bind fun json => (msgHdrDec json).toOption) =
        some ⟨.req, type, seq⟩ := by
      rw [Option.bind_some, hhdr]
      rfl
    rw [hroot]
    cases hresult : (run ⟨json, seq, junk⟩).result with
    | error e =>
        rw [hdec, runReq_exit run _ host _ world e hresult] at h
        obtain rfl := Except.ok.inj h
        refine .idle (by simp) (startedBy_failed _ _ ?_)
        rw [e.apply_status]
        exact e.rc.code_ne_zero
    | ok action =>
        rw [hdec] at h
        obtain ⟨answer, hanswer, rfl⟩ := (runReq_action run _ host _ world action hresult _).mp h
        exact (reqDispatchFind_starts ⟨.req, type, seq⟩ run hrun _ rfl action hresult host _ world
          answer hanswer).started

-- Every request is answered.
theorem reqOutcome_ret (root : Option Json) (junk : Junk) (host : Host) (world : World)
    (outcome : Outcome) (h : reqOutcome root junk host world = .ok outcome) : outcome.ret ≠ 0 := by
  rcases reqOutcome_cases root junk host world with
    ⟨rc, msg, seq, hdec, -⟩ | ⟨json, type, seq, run, -, -, hrun, hdec, -⟩
  · obtain rfl := Except.ok.inj (h.symm.trans hdec)
    exact Int.one_ne_zero
  · rw [hdec] at h
    exact (runReq_hdr type run hrun _ host world outcome h).1

end Blehostd
