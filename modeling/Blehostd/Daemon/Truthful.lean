import Blehostd.Daemon.Theorems

namespace Blehostd

-- The error code that is recorded before any call into the host: for the text,
-- the header or a field of the request.
def Recorded (root : Option Json) (junk : Junk) (code : Int) : Prop :=
  match root with
  | none => code = SYS_ERANGE
  | some json =>
      match msgHdrDec json with
      | .error (rc, _) => code = rc.code
      | .ok hdr =>
          if hdr.op ≠ .req then code = SYS_ERANGE
          else
            match reqDispatchFind hdr.type with
            | none => code = SYS_ERANGE
            | some run => ∃ e, (run ⟨json, hdr.seq, junk⟩).result = .error e ∧ code = e.rc.code

-- The members of a sync and of a reset response hold no error code.
structure Outcome.Truthful (uuidToStr : Uuid → Text) (root : Option Json) (junk : Junk)
    (outcome : Outcome) : Prop where
  ret : outcome.ret ≠ 0
  op : outcome.answer.rsp.hdr.op = .rsp
  type : outcome.answer.rsp.hdr.type = .err ∨
    ∃ json, root = some json ∧ jsonKv typeMap json "type" = .ok outcome.answer.rsp.hdr.type
  enc : ∃ enc, rspDispatchFind outcome.answer.rsp.hdr.type = .ok enc
  opName : ∃ name, kvRevFind opMap outcome.answer.rsp.hdr.op = some name
  typeName : ∃ name, kvRevFind typeMap outcome.answer.rsp.hdr.type = some name
  status : ∃ obj, rspEnc uuidToStr outcome.answer.rsp = .ok obj ∧
    (∀ code, Recorded root junk code → obj.getObjectItem "status" = some (.number code)) ∧
    (outcome.answer.rsp.hdr.type ≠ .sync → outcome.answer.rsp.hdr.type ≠ .reset →
      obj.getObjectItem "status" = some (.number outcome.answer.rsp.status))

-- A commit that the host has taken finds every service with its
-- characteristics and gets the memory to list them.
def CommitCompletes (host : Host) (s : Gatts.State) : Prop :=
  ∃ svcs, Gatts.ListsSvcs { s with valHandles := host.valHandles } 0 svcs ∧
    svcs.length = s.numSvcs - 1 ∧ ∀ si < s.numSvcs - 1, host.callocChrs si = true

theorem opMap_name (op : MsgOp) : ∃ name, kvRevFind opMap op = some name := by
  cases op <;> exact ⟨_, rfl⟩

theorem typeMap_name (type : MsgType) : ∃ name, kvRevFind typeMap type = some name := by
  cases type <;> exact ⟨_, rfl⟩

theorem Exit.apply_op (e : Exit) (rsp : Rsp) (h : rsp.hdr.op = .rsp) :
    (e.apply rsp).hdr.op = .rsp := by
  unfold Exit.apply
  cases e.report
  · rfl
  · exact h
  · exact h

theorem runReq_hdr (type : MsgType) (run : ReqRun) (hrun : reqDispatchFind type = some run)
    (r : Req) (host : Host) (world : World) (outcome : Outcome)
    (h : runReq run r host (Rsp.cleared type r.seq) world = .ok outcome) :
    outcome.ret ≠ 0 ∧ outcome.answer.rsp.hdr.op = .rsp ∧
      (outcome.answer.rsp.hdr.type = type ∨ outcome.answer.rsp.hdr.type = .err) := by
  cases hresult : (run r).result with
  | error e =>
      rw [runReq_exit run r host _ world e hresult] at h
      obtain rfl := Except.ok.inj h
      have hsent := reqDispatchFind_sent type run hrun r e hresult
      exact ⟨hsent.ret, e.apply_op _ rfl, e.apply_type _⟩
  | ok action =>
      obtain ⟨answer, hanswer, rfl⟩ := (runReq_action run r host _ world action hresult _).mp h
      refine ⟨Int.one_ne_zero, ?_⟩
      by_cases hcommit : type = .commitSvcs
      · subst hcommit
        cases hrun
        cases hresult
        have hhdr := gattsCommitSvcs_seq host _ world answer hanswer
        exact ⟨congrArg MsgHdr.op hhdr, Or.inl (congrArg MsgHdr.type hhdr)⟩
      · obtain ⟨other, hother, hfollows⟩ :=
          reqDispatchFind_answers type run hrun hcommit r action hresult host
            (Rsp.cleared type r.seq) world
        obtain rfl : answer = other := Except.ok.inj (hanswer.symm.trans hother)
        exact ⟨hfollows.op rfl, hfollows.type⟩

-- The four ways to an answer.
theorem reqOutcome_cases (root : Option Json) (junk : Junk) (host : Host) (world : World) :
    (∃ rc msg seq, reqOutcome root junk host world = .ok (errRsp rc msg seq world) ∧
      ∀ code, Recorded root junk code ↔ code = rc) ∨
    ∃ json type seq run, root = some json ∧ msgHdrDec json = .ok ⟨.req, type, seq⟩ ∧
      reqDispatchFind type = some run ∧
      reqOutcome root junk host world =
        runReq run ⟨json, seq, junk⟩ host (Rsp.cleared type seq) world ∧
      ∀ code, Recorded root junk code ↔
        ∃ e, (run ⟨json, seq, junk⟩).result = .error e ∧ code = e.rc.code := by
  cases root with
  | none => exact Or.inl ⟨_, _, _, rfl, fun _ => Iff.rfl⟩
  | some json =>
      cases hhdr : msgHdrDec json with
      | error e =>
          refine Or.inl ⟨e.1.code, e.2, 0, ?_, ?_⟩
          · simp only [reqOutcome, hhdr]
          · intro code
            simp only [Recorded, hhdr]
      | ok hdr =>
          obtain ⟨op, type, seq⟩ := hdr
          by_cases hop : op = .req
          · subst hop
            cases hrun : reqDispatchFind type with
            | none =>
                refine Or.inl ⟨SYS_ERANGE, "invalid type", seq, ?_, ?_⟩
                · simp only [reqOutcome, hhdr, hrun, ne_eq, not_true_eq_false, if_false]
                · intro code
                  simp only [Recorded, hhdr, hrun, ne_eq, not_true_eq_false, if_false]
            | some run =>
                refine Or.inr ⟨json, type, seq, run, rfl, hhdr, hrun, ?_, ?_⟩
                · simp only [reqOutcome, hhdr, hrun, ne_eq, not_true_eq_false, if_false]
                · intro code
                  simp only [Recorded, hhdr, hrun, ne_eq, not_true_eq_false, if_false]
          · refine Or.inl ⟨SYS_ERANGE, "invalid op", seq, ?_, ?_⟩
            · simp only [reqOutcome, hhdr, ne_eq, hop, not_false_eq_true, if_true]
            · intro code
              simp only [Recorded, hhdr, ne_eq, hop, not_false_eq_true, if_true]

theorem recorded_status (root : Option Json) (junk : Junk) (host : Host) (world : World)
    (outcome : Outcome) (h : reqOutcome root junk host world = .ok outcome) (code : Int)
    (hcode : Recorded root junk code) : outcome.answer.rsp.status = code ∧
      outcome.answer.rsp.hdr.type ≠ .sync ∧ outcome.answer.rsp.hdr.type ≠ .reset := by
  rcases reqOutcome_cases root junk host world with
    ⟨rc, msg, seq, hdec, hrecorded⟩ | ⟨json, type, seq, run, _, _, hrun, hdec, hrecorded⟩
  · obtain rfl := Except.ok.inj (h.symm.trans hdec)
    rw [(hrecorded code).mp hcode]
    exact ⟨rfl, nofun, nofun⟩
  · obtain ⟨e, hexit, rfl⟩ := (hrecorded code).mp hcode
    rw [hdec, runReq_exit run _ host _ world e hexit] at h
    obtain rfl := Except.ok.inj h
    have htype : type ≠ .sync ∧ type ≠ .reset := by
      constructor
      · rintro rfl
        cases hrun
        cases hexit
      · rintro rfl
        cases hrun
        cases hexit
    refine ⟨e.apply_status _, ?_⟩
    rcases e.apply_type (Rsp.cleared type seq) with hkept | herr
    · rw [hkept]
      exact htype
    · rw [herr]
      exact ⟨nofun, nofun⟩

-- A response that can be encoded is a truthful one.
theorem encoded_truthful (uuidToStr : Uuid → Text) (root : Option Json) (junk : Junk) (host : Host)
    (world : World) (outcome : Outcome) (h : reqOutcome root junk host world = .ok outcome)
    (obj : Json) (hobj : rspEnc uuidToStr outcome.answer.rsp = .ok obj) :
    outcome.Truthful uuidToStr root junk := by
  have hhdr : outcome.ret ≠ 0 ∧ outcome.answer.rsp.hdr.op = .rsp ∧
      (outcome.answer.rsp.hdr.type = .err ∨
        ∃ json, root = some json ∧
          jsonKv typeMap json "type" = .ok outcome.answer.rsp.hdr.type) := by
    rcases reqOutcome_cases root junk host world with
      ⟨rc, msg, seq, hdec, _⟩ | ⟨json, type, seq, run, rfl, hjson, hrun, hdec, _⟩
    · obtain rfl := Except.ok.inj (h.symm.trans hdec)
      exact ⟨Int.one_ne_zero, rfl, Or.inl rfl⟩
    · rw [hdec] at h
      obtain ⟨hret, hop, htype⟩ := runReq_hdr type run hrun ⟨json, seq, junk⟩ host world outcome h
      refine ⟨hret, hop, ?_⟩
      rcases htype with htype | herr
      · obtain ⟨-, -, hknown, -⟩ := msgHdrDec_ok json _ hjson
        exact Or.inr ⟨json, rfl, htype ▸ hknown⟩
      · exact Or.inl herr
  obtain ⟨enc, members, henc, _, _⟩ := (rspEnc_ok uuidToStr _ obj).mp hobj
  refine ⟨hhdr.1, hhdr.2.1, hhdr.2.2, ⟨enc, henc⟩, opMap_name _, typeMap_name _, obj, hobj, ?_, ?_⟩
  · intro code hcode
    obtain ⟨rfl, hsync, hreset⟩ := recorded_status root junk host world outcome h code hcode
    exact rspEnc_status uuidToStr _ obj hobj hsync hreset
  · exact rspEnc_status uuidToStr _ obj hobj

theorem commitSvcs_no_memory (host : Host) (s : Gatts.State) (hcalls : host.Registers)
    (hcalloc : host.callocSvcs = false) :
    Gatts.commitSvcs (commitEnv host) s =
      .ok (⟨0, []⟩, { s with valHandles := host.valHandles }) := by
  obtain ⟨hcount, hadd, hstart⟩ := hcalls
  have hfailed : (commitEnv host).callocSvcs = false := hcalloc
  simp only [Gatts.commitSvcs, hcount, hadd, hstart, hfailed, ne_eq, not_true_eq_false, and_false,
    if_false, or_true, if_true]
  rfl

theorem commit_encodes_iff (uuidToStr : Uuid → Text) (host : Host) (seq : UInt32) (world : World) :
    (∃ answer obj, gattsCommitSvcs host (Rsp.cleared .commitSvcs seq) world = .ok answer ∧
      rspEnc uuidToStr answer.rsp = .ok obj) ↔
      (host.Registers → 0 < world.tables.numSvcs → host.callocSvcs = true →
        CommitCompletes host world.tables) := by
  by_cases hgoes : host.Registers ∧ 0 < world.tables.numSvcs
  · obtain ⟨hcalls, hpos⟩ := hgoes
    cases hcalloc : host.callocSvcs with
    | false =>
        have hcommit := commitSvcs_no_memory host world.tables hcalls hcalloc
        simp only [hcalls, hpos, Bool.false_eq_true, false_imp_iff, imp_true_iff, iff_true]
        exact ⟨_, _, (bind_ok _ _ _).mpr ⟨_, hcommit, rfl⟩, rfl⟩
    | true =>
        have hstarts : (commitEnv host).Starts := ⟨hcalls.1, hcalls.2.1, hcalls.2.2, hcalloc⟩
        simp only [hcalls, hpos, forall_const]
        constructor
        · intro hdone
          obtain ⟨answer, obj, hanswer, hobj⟩ := hdone
          obtain ⟨svcs, hloop, rfl⟩ :=
            (gattsCommitSvcs_iff host _ world hstarts hpos answer).mp hanswer
          have hknown := rspEnc_known uuidToStr _ _ svcs obj rfl hobj
          obtain ⟨listed, hlists, hlength, _⟩ := Gatts.commitLoop_ok _ _ _ 0 svcs hloop hknown
          refine ⟨listed, hlists, hlength, fun si hsi => ?_⟩
          exact Gatts.commitLoop_alloc _ _ _ 0 svcs hloop si (Nat.zero_le si) (by omega)
        · intro hcompletes
          obtain ⟨listed, hlists, hlength, halloc⟩ := hcompletes
          have hloop := Gatts.commitLoop_lists (commitEnv host) _ 0 listed hlists
            fun si _ hsi => halloc si (by omega)
          rw [hlength] at hloop
          obtain ⟨obj, hobj, _⟩ := listing_size uuidToStr seq listed
          have hanswer := (gattsCommitSvcs_iff host (Rsp.cleared .commitSvcs seq) world hstarts hpos
            _).mpr ⟨_, hloop, rfl⟩
          exact ⟨_, obj, hanswer, hobj⟩
  · have hrefused : host.Registers → 0 < world.tables.numSvcs → host.callocSvcs = true →
        CommitCompletes host world.tables := by
      intro hcalls hpos
      exact absurd ⟨hcalls, hpos⟩ hgoes
    obtain ⟨answer, hanswer, hplain⟩ := refused_plain host seq world hgoes
    obtain ⟨obj, hobj⟩ := rspEnc_total uuidToStr answer.rsp hplain.enc hplain.modest.svcs
    exact ⟨fun _ => hrefused, fun _ => ⟨answer, obj, hanswer, hobj⟩⟩

-- The request is answered, and truthfully.
def RespondsTruthfully (lib : Externs) (text : Text) (junk : Junk) (host : Host) (world : World) :
    Prop :=
  ∃ outcome, reqDec (lib.parse text) junk host world = .ok outcome ∧
    outcome.Truthful lib.uuidToStr (lib.parse text) junk

-- A request that leaves its blocks is not answered, and a commit only when it completes.
theorem responds_truthfully_iff (lib : Externs) (text : Text) (junk : Junk) (host : Host)
    (world : World) : RespondsTruthfully lib text junk host world ↔
      ¬Overruns (lib.parse text) ∧
      ∀ seq, IsCommit (lib.parse text) seq → host.Registers → 0 < world.tables.numSvcs →
        host.callocSvcs = true → CommitCompletes host world.tables := by
  by_cases hcommit : ∃ seq, IsCommit (lib.parse text) seq
  · obtain ⟨seq, hseq⟩ := hcommit
    have hdec := reqDec_commit _ seq junk host world hseq
    have hencodes := commit_encodes_iff lib.uuidToStr host seq world
    constructor
    · intro hresponds
      refine ⟨hseq.inside, fun _ _ => ?_⟩
      obtain ⟨outcome, hok, htruthful⟩ := hresponds
      obtain ⟨obj, hobj, _⟩ := htruthful.status
      rw [hdec] at hok
      cases hanswer : gattsCommitSvcs host (Rsp.cleared .commitSvcs seq) world with
      | error fault =>
          rw [hanswer] at hok
          cases hok
      | ok answer =>
          rw [hanswer] at hok
          obtain rfl := Except.ok.inj hok
          exact hencodes.mp ⟨answer, obj, hanswer, hobj⟩
    · intro hcompletes
      obtain ⟨answer, obj, hanswer, hobj⟩ := hencodes.mpr (hcompletes.2 seq hseq)
      rw [hanswer] at hdec
      exact ⟨_, hdec, encoded_truthful _ _ junk host world _ (reqDec_outcome _ _ _ hdec) obj hobj⟩
  · have hnone : ∀ seq, ¬IsCommit (lib.parse text) seq := not_exists.mp hcommit
    obtain ⟨outcome, houtcome, hplain⟩ := reqOutcome_plain (lib.parse text) junk host world hnone
    obtain ⟨obj, hobj⟩ := rspEnc_total lib.uuidToStr _ hplain.enc hplain.modest.svcs
    constructor
    · rintro ⟨responded, hok, -⟩
      exact ⟨((reqDec_ok _ _ _ responded).mp hok).1, fun seq hseq => absurd hseq (hnone seq)⟩
    · rintro ⟨hinside, -⟩
      refine ⟨outcome, (reqDec_ok _ _ _ outcome).mpr ⟨hinside, houtcome⟩, ?_⟩
      exact encoded_truthful _ _ junk host world outcome houtcome obj hobj

def commitOnly : Externs :=
  ⟨fun _ => some (headerOf "request" "commit_svcs" 2), Json.layout 0, canonicalUuid⟩

-- A service without characteristics: the commit follows its NULL pointer, and
-- bhd_req_dec does not return.
theorem empty_service_no_response : ∃ s,
    Gatts.addSvcs [Gatts.emptySvc 0x180f] Gatts.State.initial = .ok (0, s) ∧
    reqDec (some (headerOf "request" "commit_svcs" 2)) zeroJunk acceptingHost
      ⟨s, Gatts.Access.initial⟩ = .error .nullPointer ∧
    ¬RespondsTruthfully commitOnly [] zeroJunk acceptingHost ⟨s, Gatts.Access.initial⟩ := by
  have hrun : ∃ s, Gatts.addSvcs [Gatts.emptySvc 0x180f] Gatts.State.initial = .ok (0, s) ∧
      reqDec (some (headerOf "request" "commit_svcs" 2)) zeroJunk acceptingHost
        ⟨s, Gatts.Access.initial⟩ = .error .nullPointer := ⟨_, rfl, rfl⟩
  obtain ⟨s, hadd, hfault⟩ := hrun
  refine ⟨s, hadd, hfault, ?_⟩
  intro hresponds
  obtain ⟨outcome, hok, _⟩ := hresponds
  cases hok.symm.trans hfault

end Blehostd
