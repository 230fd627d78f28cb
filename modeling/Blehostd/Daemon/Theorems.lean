import Blehostd.Daemon
import Blehostd.Gatts.Commit.Theorems
import Blehostd.Library.Transition
import Blehostd.Requests.Theorems

namespace Blehostd

-- No allocation fails.
structure Host.Granted (host : Host) : Prop where
  mbuf : host.mbuf = true
  callocSvcs : host.callocSvcs = true
  callocChrs : ∀ si, host.callocChrs si = true

def Event.Granted : Event → Prop
  | .request _ _ host => host.Granted
  | _ => True

-- One message comes to the end of the queue, and it is the text of a response.
def Answered (lib : Externs) (d : Daemon) : Event → Prop
  | .request packet junk host => ∃ next rsp root, processReq lib packet junk host d = .ok next ∧
      rspEnc lib.uuidToStr rsp = .ok root ∧ next.rspMq = d.rspMq ++ [rspFrame (lib.print root)]
  | _ => True

-- The host takes the three calls of a commit.
def Host.Registers (host : Host) : Prop :=
  (commitEnv host).countCfg = 0 ∧ (commitEnv host).addSvcs = 0 ∧ (commitEnv host).start = 0

-- Every slot that a commit visits holds a service with its characteristics, and
-- the text of the listing fits into a message.
def CommitFits (uuidToStr : Uuid → Text) (seq : UInt32) (host : Host) (s : Gatts.State) : Prop :=
  ∃ svcs, Gatts.ListsSvcs { s with valHandles := host.valHandles } 0 svcs ∧
    svcs.length = s.numSvcs - 1 ∧ listingSize uuidToStr seq svcs ≤ BLEHOSTD_MAX_MSG_SZ

def IsCommit (root : Option Json) (seq : UInt32) : Prop :=
  ∃ json, root = some json ∧ msgHdrDec json = .ok ⟨.req, .commitSvcs, seq⟩

-- No descriptor is written outside its block, and a commit has a listing that fits. Any
-- other request needs nothing.
def Handled (lib : Externs) (d : Daemon) : Event → Prop
  | .request packet _ host => ¬Overruns (lib.parse (reqText packet)) ∧
      ∀ seq, IsCommit (lib.parse (reqText packet)) seq → host.Registers →
        0 < d.world.tables.numSvcs → CommitFits lib.uuidToStr seq host d.world.tables
  | _ => True

-- A response that has been made and will be short.
structure Outcome.Plain (outcome : Outcome) : Prop where
  ret : outcome.ret ≠ 0
  modest : outcome.answer.rsp.Modest
  enc : ∃ enc, rspDispatchFind outcome.answer.rsp.hdr.type = .ok enc

theorem cleared_modest (type : MsgType) (seq : UInt32) : (Rsp.cleared type seq).Modest :=
  ⟨(by decide : -2 ^ 31 ≤ (0 : Int)), (by decide : (0 : Int) < 2 ^ 31), Nat.zero_le _, rfl⟩

theorem ErrCode.code_bounds (rc : ErrCode) : -2 ^ 31 ≤ rc.code ∧ rc.code < 2 ^ 31 := by
  cases rc <;> decide

theorem Exit.Sent.modest {e : Exit} (he : e.Sent) (rsp : Rsp) (hrsp : rsp.Modest) :
    (e.apply rsp).Modest := by
  obtain ⟨hlower, hupper⟩ := e.rc.code_bounds
  unfold Exit.apply
  cases e.report with
  | build => exact ⟨hlower, hupper, he.msg, rfl⟩
  | fill => exact ⟨hlower, hupper, he.msg, rfl⟩
  | own => exact ⟨hlower, hupper, hrsp.msg, hrsp.svcs⟩

theorem reqDispatchFind_sent (type : MsgType) (run : ReqRun)
    (hrun : reqDispatchFind type = some run) (r : Req) (e : Exit)
    (h : (run r).result = .error e) : e.Sent := by
  by_cases hnotify : type = .notify
  · subst hnotify
    cases hrun
    by_cases hbad : BadNotifyData r.parent
    · obtain ⟨_, req, haction, _⟩ := notify_bad r hbad
      rw [haction] at h
      cases h
    · exact (notify_strict r hbad).left e h
  · exact (reqDispatchFind_strict type run hrun hnotify r).left e h

theorem enc_of_type (type : MsgType) (run : ReqRun) (hrun : reqDispatchFind type = some run)
    (rsp : Rsp) (h : rsp.hdr.type = type ∨ rsp.hdr.type = .err) :
    ∃ enc, rspDispatchFind rsp.hdr.type = .ok enc := by
  rcases h with h | h
  · rw [h]
    exact reqDispatchFind_enc type run hrun
  · rw [h]
    exact ⟨_, rfl⟩

theorem runReq_plain (type : MsgType) (run : ReqRun) (hrun : reqDispatchFind type = some run)
    (hcommit : type ≠ .commitSvcs) (r : Req) (host : Host) (world : World) :
    ∃ outcome, runReq run r host (Rsp.cleared type r.seq) world = .ok outcome ∧
      outcome.Plain := by
  have hcleared := cleared_modest type r.seq
  cases hresult : (run r).result with
  | error e =>
      have hsent := reqDispatchFind_sent type run hrun r e hresult
      exact ⟨_, runReq_exit run r host _ world e hresult, hsent.ret, hsent.modest _ hcleared,
        enc_of_type type run hrun _ (e.apply_type _)⟩
  | ok action =>
      obtain ⟨answer, hanswer, hfollows⟩ :=
        reqDispatchFind_answers type run hrun hcommit r action hresult host _ world
      exact ⟨_, (runReq_action run r host _ world action hresult _).mpr ⟨answer, hanswer, rfl⟩,
        Int.one_ne_zero, hfollows.modest hcleared, enc_of_type type run hrun _ hfollows.type⟩

theorem errRsp_plain (rc : Int) (msg : String) (seq : UInt32) (world : World)
    (hlower : -2 ^ 31 ≤ rc) (hupper : rc < 2 ^ 31) (hmsg : msg.length ≤ 64) :
    (errRsp rc msg seq world).Plain :=
  ⟨Int.one_ne_zero, ⟨hlower, hupper, hmsg, rfl⟩, ⟨_, rfl⟩⟩

theorem msgHdrDec_msg (root : Json) (rc : ErrCode) (msg : String)
    (h : msgHdrDec root = .error (rc, msg)) : msg.length ≤ 64 := by
  rcases msgHdrDec_cases root with ⟨e, hbad, -⟩ | ⟨e, hbad, -⟩ | ⟨e, hbad, -⟩ |
    ⟨op, type, n, hgood, -⟩
  · obtain ⟨-, rfl⟩ := Prod.mk.inj (Except.error.inj (h.symm.trans hbad))
    decide
  · obtain ⟨-, rfl⟩ := Prod.mk.inj (Except.error.inj (h.symm.trans hbad))
    decide
  · obtain ⟨-, rfl⟩ := Prod.mk.inj (Except.error.inj (h.symm.trans hbad))
    decide
  · exact absurd (h.symm.trans hgood) (by simp)

-- Everything but a commit is answered in short.
theorem reqOutcome_plain (root : Option Json) (junk : Junk) (host : Host) (world : World)
    (hcommit : ∀ seq, ¬IsCommit root seq) :
    ∃ outcome, reqOutcome root junk host world = .ok outcome ∧ outcome.Plain := by
  cases root with
  | none => exact ⟨_, rfl, errRsp_plain _ _ _ _ (by decide) (by decide) (by decide)⟩
  | some json =>
      cases hhdr : msgHdrDec json with
      | error e =>
          obtain ⟨rc, msg⟩ := e
          obtain ⟨hlower, hupper⟩ := rc.code_bounds
          simp only [reqOutcome, hhdr]
          exact ⟨_, rfl, errRsp_plain _ _ _ _ hlower hupper (msgHdrDec_msg json rc msg hhdr)⟩
      | ok hdr =>
          obtain ⟨op, type, seq⟩ := hdr
          by_cases hop : op = .req
          · subst hop
            cases hrun : reqDispatchFind type with
            | none =>
                simp only [reqOutcome, hhdr, hrun, ne_eq, not_true_eq_false, if_false]
                exact ⟨_, rfl, errRsp_plain _ _ _ _ (by decide) (by decide) (by decide)⟩
            | some run =>
                have htype : type ≠ .commitSvcs := by
                  rintro rfl
                  exact hcommit seq ⟨json, rfl, hhdr⟩
                simp only [reqOutcome, hhdr, hrun, ne_eq, not_true_eq_false, if_false]
                exact runReq_plain type run hrun htype ⟨json, seq, junk⟩ host world
          · simp only [reqOutcome, hhdr, ne_eq, hop, not_false_eq_true, if_true]
            exact ⟨_, rfl, errRsp_plain _ _ _ _ (by decide) (by decide) (by decide)⟩

theorem processReq_sent (lib : Externs) (packet : Mbuf) (junk : Junk) (host : Host) (d : Daemon)
    (outcome : Outcome) (root : Json) (hret : outcome.ret ≠ 0)
    (h : reqDec (lib.parse (reqText packet)) junk host d.world = .ok outcome)
    (hroot : rspEnc lib.uuidToStr outcome.answer.rsp = .ok root) :
    processReq lib packet junk host d =
      .ok ⟨outcome.answer.world, (enqueueRsp (lib.print root) d.rspMq).2⟩ := by
  simp only [processReq, rspSend, h, hroot, if_neg hret, bind, Except.bind]

theorem not_answered_of_kept (lib : Externs) (packet : Mbuf) (junk : Junk) (host : Host)
    (d next : Daemon) (h : processReq lib packet junk host d = .ok next)
    (hkept : next.rspMq = d.rspMq) : ¬Answered lib d (.request packet junk host) := by
  intro hanswered
  obtain ⟨other, _, _, hother, _, hput⟩ := hanswered
  obtain rfl : next = other := Except.ok.inj (h.symm.trans hother)
  rw [hkept] at hput
  exact List.cons_ne_nil _ _ (List.self_eq_append_right.mp hput)

-- With the response of a request at hand, only the encoder and the limit of the
-- queue are left.
theorem answered_iff_short (lib : Externs) (packet : Mbuf) (junk : Junk) (host : Host) (d : Daemon)
    (outcome : Outcome) (hret : outcome.ret ≠ 0)
    (h : reqDec (lib.parse (reqText packet)) junk host d.world = .ok outcome) :
    Answered lib d (.request packet junk host) ↔
      ∃ root, rspEnc lib.uuidToStr outcome.answer.rsp = .ok root ∧
        (lib.print root).length ≤ BLEHOSTD_MAX_MSG_SZ := by
  constructor
  · intro hanswered
    cases hroot : rspEnc lib.uuidToStr outcome.answer.rsp with
    | error fault =>
        obtain ⟨next, _, _, hnext, _⟩ := hanswered
        simp only [processReq, rspSend, h, hroot, if_neg hret, bind, Except.bind] at hnext
        cases hnext
    | ok root =>
        refine ⟨root, rfl, Nat.le_of_not_lt fun hlong => ?_⟩
        have hnext := processReq_sent lib packet junk host d outcome root hret h hroot
        rw [enqueueRsp, if_pos hlong] at hnext
        exact not_answered_of_kept lib packet junk host d _ hnext rfl hanswered
  · intro hshort
    obtain ⟨root, hroot, hlength⟩ := hshort
    have hnext := processReq_sent lib packet junk host d outcome root hret h hroot
    rw [enqueueRsp, if_neg (Nat.not_lt.mpr hlength)] at hnext
    exact ⟨_, _, root, hnext, hroot, rfl⟩

theorem plain_answered (lib : Externs) (hprint : ∀ json, lib.print json = Json.layout 0 json)
    (packet : Mbuf) (junk : Junk) (host : Host) (d : Daemon) (outcome : Outcome)
    (hplain : outcome.Plain)
    (h : reqDec (lib.parse (reqText packet)) junk host d.world = .ok outcome) :
    Answered lib d (.request packet junk host) := by
  obtain ⟨root, hroot⟩ := rspEnc_total lib.uuidToStr _ hplain.enc hplain.modest.svcs
  have hshort := rspEnc_short lib.uuidToStr _ hplain.modest root hroot
  refine (answered_iff_short lib packet junk host d outcome hplain.ret h).mpr ⟨root, hroot, ?_⟩
  rw [hprint]
  exact Nat.le_trans hshort (by decide)

theorem IsCommit.unique {root : Option Json} {seq other : UInt32} (h : IsCommit root seq)
    (hother : IsCommit root other) : seq = other := by
  obtain ⟨json, rfl, hhdr⟩ := h
  obtain ⟨_, hjson, hhdr'⟩ := hother
  obtain rfl := Option.some.inj hjson
  exact congrArg MsgHdr.seq (Except.ok.inj (hhdr.symm.trans hhdr'))

theorem IsCommit.inside {root : Option Json} {seq : UInt32} (h : IsCommit root seq) :
    ¬Overruns root := by
  obtain ⟨json, rfl, hhdr⟩ := h
  exact not_overruns hhdr (by decide)

theorem reqOutcome_commit (root : Option Json) (seq : UInt32) (junk : Junk) (host : Host)
    (world : World) (h : IsCommit root seq) : reqOutcome root junk host world =
      (gattsCommitSvcs host (Rsp.cleared .commitSvcs seq) world).map fun answer => ⟨1, answer⟩ := by
  obtain ⟨json, rfl, hhdr⟩ := h
  simp only [reqOutcome, hhdr, ne_eq, not_true_eq_false, if_false]
  rfl

theorem reqDec_commit (root : Option Json) (seq : UInt32) (junk : Junk) (host : Host)
    (world : World) (h : IsCommit root seq) : reqDec root junk host world =
      (gattsCommitSvcs host (Rsp.cleared .commitSvcs seq) world).map fun answer => ⟨1, answer⟩ :=
  (reqDec_inside junk host world h.inside).trans (reqOutcome_commit root seq junk host world h)

-- A request that leaves its blocks is not answered: it is a fault.
theorem not_answered_of_overruns (lib : Externs) (packet : Mbuf) (junk : Junk) (host : Host)
    (d : Daemon) (h : Overruns (lib.parse (reqText packet))) :
    ¬Answered lib d (.request packet junk host) := by
  intro hanswered
  obtain ⟨next, _, _, hnext, _⟩ := hanswered
  simp only [processReq, reqDec_overruns junk host d.world h, bind, Except.bind] at hnext
  cases hnext

-- A commit that the host refuses, or that has nothing to register, lists nothing.
theorem commitSvcs_refused (host : Host) (s : Gatts.State)
    (h : ¬(host.Registers ∧ 0 < s.numSvcs)) :
    ∃ status s', Gatts.commitSvcs (commitEnv host) s = .ok (⟨status, []⟩, s') ∧
      -2 ^ 31 ≤ status ∧ status < 2 ^ 31 := by
  unfold Gatts.commitSvcs
  dsimp only
  split_ifs with hcount hadd hstart hnone
  · exact ⟨_, _, rfl, result_lower _, result_upper _⟩
  · exact ⟨_, _, rfl, result_lower _, result_upper _⟩
  · exact ⟨_, _, rfl, result_lower _, result_upper _⟩
  · exact ⟨_, _, rfl, by decide, by decide⟩
  · exfalso
    apply h
    have hpos : 0 < s.numSvcs := Nat.pos_of_ne_zero fun hzero => hnone (Or.inl hzero)
    simp only [hpos, true_and, not_not] at hcount hadd hstart
    exact ⟨⟨hcount, hadd, hstart⟩, hpos⟩

theorem refused_plain (host : Host) (seq : UInt32) (world : World)
    (h : ¬(host.Registers ∧ 0 < world.tables.numSvcs)) :
    ∃ answer, gattsCommitSvcs host (Rsp.cleared .commitSvcs seq) world = .ok answer ∧
      (Outcome.mk 1 answer).Plain := by
  obtain ⟨status, s', hcommit, hlower, hupper⟩ := commitSvcs_refused host world.tables h
  simp only [gattsCommitSvcs, hcommit, bind, Except.bind]
  exact ⟨_, rfl, Int.one_ne_zero, ⟨hlower, hupper, Nat.zero_le _, rfl⟩, ⟨_, rfl⟩⟩

theorem granted_succeeds (host : Host) (hgranted : host.Granted) (hregisters : host.Registers) :
    (commitEnv host).Succeeds :=
  ⟨hregisters.1, hregisters.2.1, hregisters.2.2, hgranted.callocSvcs, hgranted.callocChrs⟩

theorem gattsCommitSvcs_iff (host : Host) (rsp : Rsp) (world : World)
    (hstarts : (commitEnv host).Starts) (hpos : 0 < world.tables.numSvcs) (answer : Answer) :
    gattsCommitSvcs host rsp world = .ok answer ↔ ∃ svcs,
      Gatts.commitLoop (commitEnv host) { world.tables with valHandles := host.valHandles }
        (world.tables.numSvcs - 1) 0 = .ok (some svcs) ∧
      answer = ⟨{ rsp with status := 0, body := .commitSvcs svcs },
        { world with tables := { world.tables with valHandles := host.valHandles } },
        commitCalls (commitEnv host) world.tables⟩ := by
  simp only [gattsCommitSvcs, Gatts.commitSvcs_iff _ _ hstarts hpos, bind_ok, Except.ok.injEq]
  constructor
  · intro h
    obtain ⟨_, ⟨svcs, hloop, rfl⟩, rfl⟩ := h
    exact ⟨svcs, hloop, rfl⟩
  · intro h
    obtain ⟨svcs, hloop, rfl⟩ := h
    exact ⟨_, ⟨svcs, hloop, rfl⟩, rfl⟩

-- The answer of a commit that goes through is the listing of the tables.
theorem commit_listed (lib : Externs) (packet : Mbuf) (junk : Junk) (host : Host) (d : Daemon)
    (seq : UInt32) (hcommit : IsCommit (lib.parse (reqText packet)) seq)
    (hok : (commitEnv host).Succeeds) (hpos : 0 < d.world.tables.numSvcs)
    (listed : List Gatts.ListedSvc)
    (hlists : Gatts.ListsSvcs { d.world.tables with valHandles := host.valHandles } 0 listed)
    (hlength : listed.length = d.world.tables.numSvcs - 1) :
    ∃ outcome root, reqDec (lib.parse (reqText packet)) junk host d.world = .ok outcome ∧
      outcome.ret ≠ 0 ∧ rspEnc lib.uuidToStr outcome.answer.rsp = .ok root ∧
      (Json.layout 0 root).length = listingSize lib.uuidToStr seq listed := by
  have hdec := reqDec_commit _ seq junk host d.world hcommit
  have hloop := Gatts.commitLoop_lists (commitEnv host) _ 0 listed hlists
    fun si _ _ => hok.callocChrs si
  rw [hlength] at hloop
  have hanswer := (gattsCommitSvcs_iff host (Rsp.cleared .commitSvcs seq) d.world hok.starts
    hpos _).mpr
    ⟨_, hloop, rfl⟩
  rw [hanswer] at hdec
  obtain ⟨root, hroot, hsize⟩ := listing_size lib.uuidToStr seq listed
  exact ⟨_, root, hdec, Int.one_ne_zero, hroot, hsize⟩

theorem commit_answered_iff (lib : Externs) (hprint : ∀ json, lib.print json = Json.layout 0 json)
    (packet : Mbuf) (junk : Junk) (host : Host) (d : Daemon) (seq : UInt32)
    (hcommit : IsCommit (lib.parse (reqText packet)) seq)
    (hok : (commitEnv host).Succeeds) (hpos : 0 < d.world.tables.numSvcs) :
    Answered lib d (.request packet junk host) ↔
      CommitFits lib.uuidToStr seq host d.world.tables := by
  constructor
  · intro hanswered
    have hdec := reqDec_commit _ seq junk host d.world hcommit
    cases hanswer : gattsCommitSvcs host (Rsp.cleared .commitSvcs seq) d.world with
    | error fault =>
        rw [hanswer] at hdec
        obtain ⟨next, _, _, hnext, _⟩ := hanswered
        simp only [processReq, hdec, Except.map, bind, Except.bind] at hnext
        cases hnext
    | ok answer =>
        rw [hanswer] at hdec
        obtain ⟨svcs, hloop, rfl⟩ :=
          (gattsCommitSvcs_iff host _ d.world hok.starts hpos answer).mp hanswer
        obtain ⟨root, hroot, hshort⟩ :=
          (answered_iff_short lib packet junk host d _ Int.one_ne_zero hdec).mp hanswered
        have hknown := rspEnc_known lib.uuidToStr _ _ svcs root rfl hroot
        obtain ⟨listed, hlists, hlength, rfl⟩ := Gatts.commitLoop_ok _ _ _ 0 svcs hloop hknown
        obtain ⟨other, hother, hsize⟩ := listing_size lib.uuidToStr seq listed
        obtain rfl : root = other := Except.ok.inj (hroot.symm.trans hother)
        rw [hprint, hsize] at hshort
        exact ⟨listed, hlists, hlength, hshort⟩
  · intro hfits
    obtain ⟨listed, hlists, hlength, hshort⟩ := hfits
    obtain ⟨outcome, root, hdec, hret, hroot, hsize⟩ :=
      commit_listed lib packet junk host d seq hcommit hok hpos listed hlists hlength
    refine (answered_iff_short lib packet junk host d outcome hret hdec).mpr ⟨root, hroot, ?_⟩
    rw [hprint, hsize]
    exact hshort

-- A commit that the host refuses, or one of no services, has an answer of its own.
theorem commit_handled_iff (lib : Externs) (hprint : ∀ json, lib.print json = Json.layout 0 json)
    (packet : Mbuf) (junk : Junk) (host : Host) (d : Daemon) (hgranted : host.Granted)
    (seq : UInt32) (hseq : IsCommit (lib.parse (reqText packet)) seq) :
    Answered lib d (.request packet junk host) ↔
      (host.Registers → 0 < d.world.tables.numSvcs →
        CommitFits lib.uuidToStr seq host d.world.tables) := by
  by_cases hpasses : host.Registers ∧ 0 < d.world.tables.numSvcs
  · obtain ⟨hregisters, hpos⟩ := hpasses
    have hok := granted_succeeds host hgranted hregisters
    rw [commit_answered_iff lib hprint packet junk host d seq hseq hok hpos]
    exact ⟨fun hfits _ _ => hfits, fun hhandled => hhandled hregisters hpos⟩
  · obtain ⟨answer, hanswer, hplain⟩ := refused_plain host seq d.world hpasses
    have hdec := reqDec_commit _ seq junk host d.world hseq
    rw [hanswer] at hdec
    constructor
    · intro _ hregisters hpos
      exact absurd ⟨hregisters, hpos⟩ hpasses
    · intro _
      exact plain_answered lib hprint packet junk host d _ hplain hdec

theorem request_answered_iff (lib : Externs) (hprint : ∀ json, lib.print json = Json.layout 0 json)
    (d : Daemon) (event : Event) (hgranted : event.Granted) :
    Answered lib d event ↔ Handled lib d event := by
  cases event with
  | request packet junk host =>
      by_cases hcommit : ∃ seq, IsCommit (lib.parse (reqText packet)) seq
      · obtain ⟨seq, hseq⟩ := hcommit
        rw [commit_handled_iff lib hprint packet junk host d hgranted seq hseq]
        constructor
        · intro hfits
          refine ⟨hseq.inside, fun other hother => ?_⟩
          rw [hother.unique hseq]
          exact hfits
        · intro hhandled
          exact hhandled.2 seq hseq
      · constructor
        · intro hanswered
          refine ⟨?_, fun seq hseq => absurd ⟨seq, hseq⟩ hcommit⟩
          intro hoverruns
          exact not_answered_of_overruns lib packet junk host d hoverruns hanswered
        · intro hhandled
          obtain ⟨outcome, hdec, hplain⟩ :=
            reqOutcome_plain _ junk host d.world (not_exists.mp hcommit)
          rw [← reqDec_inside junk host d.world hhandled.1] at hdec
          exact plain_answered lib hprint packet junk host d outcome hplain hdec
  | accessWake => exact Iff.rfl
  | accessReset => exact Iff.rfl
  | evtSeq => exact Iff.rfl
  | evtSend json => exact Iff.rfl
  | rspTaken => exact Iff.rfl

-- Every request of a run is answered by one message if and only if none of them leaves its
-- blocks and every commit of the run finds a listing that fits.
theorem requests_answered_iff (lib : Externs) (hprint : ∀ json, lib.print json = Json.layout 0 json)
    (events : List Event) (hgranted : ∀ event ∈ events, event.Granted) :
    Transition.Meets (step lib) (Answered lib) Daemon.initial events ↔
      Transition.Meets (step lib) (Handled lib) Daemon.initial events := by
  apply Transition.meets_congr
  intro d event hmem
  exact request_answered_iff lib hprint d event (hgranted event hmem)

-- A service with this many characteristics never fits into a message.
theorem wide_listing_long (uuidToStr : Uuid → Text) (seq : UInt32)
    (svc : Gatts.ListedSvc) (h : 110 ≤ svc.chrs.length) :
    BLEHOSTD_MAX_MSG_SZ < listingSize uuidToStr seq [svc] := by
  have hsvc := svcSize_ge uuidToStr svc
  have hseq := Json.decimal_length_pos seq.toNat
  simp only [listingSize, BLEHOSTD_MAX_MSG_SZ, List.map_cons, List.map_nil, Json.itemsSize,
    List.sum_cons, List.sum_nil, List.cons_ne_nil, if_false]
  omega

-- A daemon that reads back the texts of some requests.
def externsFor (requests : List Json) : Externs where
  parse text := requests.find? fun request => Json.layout 0 request = text
  print := Json.layout 0
  uuidToStr := canonicalUuid

theorem reqText_layout (request : Json) :
    reqText (Json.layout 0 request) = Json.layout 0 request := by
  have hnul := Json.layout_no_nul 0 request
  unfold reqText
  generalize Json.layout 0 request = text at hnul
  induction text with
  | nil => rfl
  | cons c rest ih =>
      simp only [List.mem_cons, not_or] at hnul
      rw [List.takeWhile_cons_of_pos (by simpa using Ne.symm hnul.1), ih hnul.2]

def requestHeader (type : String) (seq : Int) : Members :=
  addString "op" "request" ++ addString "type" type ++ addInt "seq" seq

def commitRequest : Json :=
  .object (requestHeader "commit_svcs" 2)

def plainChr : Json :=
  .object (addInt "uuid" 1 ++ addInt "flags" 2 ++ addInt "min_key_size" 0)

-- One service with `n` characteristics.
def wideService (n : Nat) : Json :=
  .object (addString "type" "primary" ++ addInt "uuid" 1 ++
    addItem "characteristics" (.array (List.replicate n plainChr)))

def wideRequest (n : Nat) : Json :=
  .object (requestHeader "add_svcs" 1 ++ addItem "services" (.array [wideService n]))

def wideSvc (n : Nat) : Gatts.Svc :=
  ⟨.primary, .u16 1, List.replicate n ⟨.u16 1, 2, 0, []⟩⟩

def wideExterns (n : Nat) : Externs :=
  externsFor [commitRequest, wideRequest n]

theorem commitRequest_parsed (n : Nat) :
    (wideExterns n).parse (reqText (Json.layout 0 commitRequest)) = some commitRequest := by
  rw [reqText_layout]
  simp [wideExterns, externsFor]

theorem wideService_length (n : Nat) : (Json.layout 2 (wideService n)).length =
    64 + Json.itemsSize (List.replicate n 63) := by
  have hfront : Json.membersSize 3 (addString "type" "primary" ++ addInt "uuid" 1) = 36 := by decide
  have hname : (Json.quote (ascii "characteristics")).length = 17 := by decide
  have hchr : (Json.layout 4 plainChr).length = 63 := by decide
  rw [wideService, Json.layout_object_length _ _ (by simp [addInt]), Json.membersSize_append,
    hfront, Json.membersSize_item, hname, Json.layout_array_length, List.map_replicate, hchr]
  omega

theorem wideRequest_length (n : Nat) : (Json.layout 0 (wideRequest n)).length =
    133 + Json.itemsSize (List.replicate n 63) := by
  have hheader : Json.membersSize 1 (requestHeader "add_svcs" 1) = 50 := by decide
  have hname : (Json.quote (ascii "services")).length = 10 := by decide
  rw [wideRequest, Json.layout_object_length _ _ (by simp [requestHeader, addInt])]
  simp only [Json.membersSize_append, Json.membersSize_item, hheader, hname,
    Json.layout_array_length, List.map_cons, List.map_nil, Nat.reduceAdd, wideService_length]
  simp [Json.itemsSize]
  omega

theorem wideRequest_parsed (n : Nat) :
    (wideExterns n).parse (reqText (Json.layout 0 (wideRequest n))) = some (wideRequest n) := by
  have hcommit : (Json.layout 0 commitRequest).length = 55 := by decide
  have hne : Json.layout 0 commitRequest ≠ Json.layout 0 (wideRequest n) := by
    intro heq
    have hlength := wideRequest_length n
    rw [← heq, hcommit] at hlength
    omega
  rw [reqText_layout]
  simp [wideExterns, externsFor, hne]

theorem plainChrs_decoded (junk : Nat → Nat → Gatts.Dsc) (n : Nat) :
    (Decoder.each (fun ci item => jsonChr (junk ci) item) 0 (List.replicate n plainChr)).result =
      .ok (List.replicate n ⟨.u16 1, 2, 0, []⟩) := by
  rw [Decoder.each_ok _ (fun _ => ⟨.u16 1, 2, 0, []⟩), List.map_replicate]
  intro i item hmem
  rw [List.eq_of_mem_replicate hmem]
  rfl

theorem wideService_decoded (junk : Nat → Nat → Gatts.Dsc) (n : Nat) :
    (jsonSvc junk (wideService n)).result = .ok (wideSvc n) := by
  unfold jsonSvc
  rw [Decoder.result_bind _ _ SvcType.primary rfl, Decoder.result_bind _ _ (Uuid.u16 1) rfl,
    Decoder.result_bind _ _ (some (List.replicate n plainChr)) rfl, Option.getD_some,
    Decoder.result_bind _ _ _ (plainChrs_decoded junk n)]
  rfl

theorem wideRequest_decoded (n : Nat) :
    (addSvcsReqRun ⟨wideRequest n, 1, zeroJunk⟩).result = .ok (gattsAddSvcs [wideSvc n]) := by
  have hsvcs := Decoder.each_ok (fun si item => jsonSvc (zeroJunk.dscs si) item)
    (fun _ => wideSvc n) 0 [wideService n] (by
      intro i item hmem
      rw [List.mem_singleton.mp hmem]
      exact wideService_decoded _ n)
  have hdec : (addSvcsDec ⟨wideRequest n, 1, zeroJunk⟩).result = .ok [wideSvc n] := by
    unfold addSvcsDec
    rw [Decoder.result_bind _ _ _ rfl]
    exact congrArg (Except.mapError _) hsvcs
  unfold addSvcsReqRun
  rw [Decoder.result_bind _ _ _ hdec]
  rfl

-- Its characteristics have no descriptors.
theorem wideRequest_inside (n : Nat) : ¬Overruns (some (wideRequest n)) := by
  apply not_overruns_of_plain
  intro svcs hsvcs svc hsvc chrs hchrs chr hchr
  have hservices : (wideRequest n).getObjectItem "services" = some (.array [wideService n]) := rfl
  obtain rfl := Json.array.inj (Option.some.inj (hservices.symm.trans hsvcs))
  obtain rfl := List.mem_singleton.mp hsvc
  have hplain : ListField (wideService n) "characteristics" (List.replicate n plainChr) :=
    Or.inl rfl
  rw [hchrs.unique hplain] at hchr
  rw [List.eq_of_mem_replicate hchr]
  exact Or.inr ⟨rfl, rfl⟩

-- The service is stored, and the response says so.
theorem wideRequest_step (n : Nat)
    (hfits : Gatts.verifyResourceCnt [wideSvc n] Gatts.State.initial = 0) :
    ∃ d, Gatts.addSvcs [wideSvc n] Gatts.State.initial = .ok (0, d.world.tables) ∧
      step (wideExterns n) Daemon.initial
        (.request (Json.layout 0 (wideRequest n)) zeroJunk acceptingHost) = some d := by
  rcases Gatts.addSvcs_total [wideSvc n] Gatts.State.initial with ⟨hrefused, _⟩ | ⟨s, hadd⟩
  · exact absurd hfits hrefused
  · have haction := gattsAddSvcs_of [wideSvc n] acceptingHost (Rsp.cleared .addSvcs 1) World.initial
      _ _ hadd
    have hrun := (runReq_action addSvcsReqRun _ acceptingHost (Rsp.cleared .addSvcs 1) _ _
      (wideRequest_decoded n) _).mpr ⟨_, haction, rfl⟩
    have hdec : reqDec ((wideExterns n).parse (reqText (Json.layout 0 (wideRequest n)))) zeroJunk
        acceptingHost World.initial =
          .ok ⟨1, ⟨Rsp.cleared .addSvcs 1, ⟨s, Gatts.Access.initial⟩, []⟩⟩ := by
      rw [wideRequest_parsed, reqDec_inside _ _ _ (wideRequest_inside n)]
      exact hrun
    have hnext := processReq_sent (wideExterns n) _ zeroJunk acceptingHost Daemon.initial _ _
      Int.one_ne_zero hdec rfl
    exact ⟨⟨⟨s, Gatts.Access.initial⟩, _⟩, hadd, by simp only [step, hnext]; rfl⟩

theorem acceptingHost_granted : acceptingHost.Granted :=
  ⟨rfl, rfl, fun _ => rfl⟩

theorem acceptingHost_registers : acceptingHost.Registers :=
  ⟨rfl, rfl, rfl⟩

theorem commitRequest_isCommit (n : Nat) :
    IsCommit ((wideExterns n).parse (reqText (Json.layout 0 commitRequest))) 2 :=
  ⟨commitRequest, commitRequest_parsed n, rfl⟩

def wideEvents (n : Nat) : List Event :=
  [.request (Json.layout 0 (wideRequest n)) zeroJunk acceptingHost,
    .request (Json.layout 0 commitRequest) zeroJunk acceptingHost]

theorem wideEvents_granted (n : Nat) : ∀ event ∈ wideEvents n, event.Granted := by
  intro event hmem
  simp only [wideEvents, List.mem_cons, List.not_mem_nil, or_false] at hmem
  rcases hmem with rfl | rfl <;> exact acceptingHost_granted

-- One characteristic fits.
theorem requests_answered_iff_one :
    Transition.Meets (step (wideExterns 1)) (Answered (wideExterns 1)) Daemon.initial
      (wideEvents 1) := by
  apply (requests_answered_iff (wideExterns 1) (fun _ => rfl) _ (wideEvents_granted 1)).mpr
  obtain ⟨d, hadd, hstep⟩ := wideRequest_step 1 (by decide +kernel)
  have hnum := Gatts.numSvcs_added _ BHD_SEQ_EVT_MIN d.world.tables hadd
  refine Transition.meets_cons ⟨?_, ?_⟩ hstep ⟨⟨?_, ?_⟩, fun _ _ => trivial⟩
  · rw [wideRequest_parsed]
    exact wideRequest_inside 1
  · intro seq hcommit
    obtain ⟨json, hjson, hhdr⟩ := hcommit
    rw [wideRequest_parsed] at hjson
    cases hjson
    cases hhdr
  · exact (commitRequest_isCommit 1).inside
  · intro seq hcommit _ _
    obtain rfl := hcommit.unique (commitRequest_isCommit 1)
    have hlists := Gatts.listsSvcs_added [wideSvc 1] BHD_SEQ_EVT_MIN d.world.tables
      acceptingHost.valHandles hadd (by decide)
    exact ⟨_, hlists, by rw [hnum]; rfl, by decide +kernel⟩

-- With 110 characteristics both requests are short enough and the listing is
-- not. The commit succeeds, and nothing is put on the queue.
theorem long_listing_not_answered : ∃ d next,
    (Json.layout 0 (wideRequest 110)).length ≤ BLEHOSTD_MAX_MSG_SZ ∧
    Transition.run (step (wideExterns 110)) Daemon.initial ((wideEvents 110).take 1) = some d ∧
    processReq (wideExterns 110) (Json.layout 0 commitRequest) zeroJunk acceptingHost d =
      .ok next ∧ next.rspMq = d.rspMq ∧
    ¬Transition.Meets (step (wideExterns 110)) (Answered (wideExterns 110)) Daemon.initial
      (wideEvents 110) := by
  obtain ⟨d, hadd, hstep⟩ := wideRequest_step 110 (by decide +kernel)
  have hnum := Gatts.numSvcs_added _ BHD_SEQ_EVT_MIN d.world.tables hadd
  have hlists := Gatts.listsSvcs_added [wideSvc 110] BHD_SEQ_EVT_MIN d.world.tables
    acceptingHost.valHandles hadd (by decide)
  have hok := granted_succeeds acceptingHost acceptingHost_granted acceptingHost_registers
  obtain ⟨outcome, root, hdec, hret, hroot, hsize⟩ := commit_listed (wideExterns 110)
    (Json.layout 0 commitRequest) zeroJunk acceptingHost d 2 (commitRequest_isCommit 110) hok
    (by rw [hnum]; decide) _ hlists (by rw [hnum]; rfl)
  have hprint : (wideExterns 110).print root = Json.layout 0 root := rfl
  have hlong : BLEHOSTD_MAX_MSG_SZ < ((wideExterns 110).print root).length := by
    rw [hprint, hsize]
    exact wide_listing_long canonicalUuid 2 _ (by decide)
  have hnext := processReq_sent _ _ _ _ d outcome root hret hdec hroot
  rw [enqueueRsp, if_pos hlong] at hnext
  refine ⟨d, _, ?_, ?_, hnext, rfl, ?_⟩
  · rw [wideRequest_length]
    decide +kernel
  · simp only [wideEvents, List.take, Transition.run, hstep, Option.bind_some]
  · intro hmeets
    have hanswered := (hmeets.2 d hstep).1
    exact not_answered_of_kept _ _ _ _ d _ hnext rfl hanswered

end Blehostd
