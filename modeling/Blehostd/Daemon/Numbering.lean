import Blehostd.Daemon.Truthful
import Blehostd.Gatts.Numbering.Theorems

namespace Blehostd

-- The counter and the attributes hold numbers of bhd_next_evt_seq only.
structure EventNumbers (s : Gatts.State) : Prop where
  nextSeq : ∃ n, s.nextSeq = evtSeq n
  args : ∀ a seq, s.attrArg a = some seq → ∃ n, seq = evtSeq n

-- The numbers that the next event may carry: a sync, reset or notify_rx event
-- takes the one of the counter, and an access event the one of its attribute.
def Daemon.EventSeq (d : Daemon) (seq : UInt32) : Prop :=
  seq = (nextEvtSeq d.world.tables.nextSeq).1 ∨ ∃ a, d.world.tables.attrArg a = some seq

-- The number of a request whose header is accepted.
def acceptedSeq (lib : Externs) : Event → Option UInt32
  | .request packet _ _ =>
      (lib.parse (reqText packet)).bind fun root => (msgHdrDec root).toOption.map MsgHdr.seq
  | _ => none

def acceptedSeqs (lib : Externs) (events : List Event) : List UInt32 :=
  events.filterMap (acceptedSeq lib)

theorem evtSeq_min (n : Nat) : BHD_SEQ_EVT_MIN ≤ evtSeq n := by
  rw [UInt32.le_iff_toNat_le, evtSeq_toNat]
  exact Nat.le_add_right _ _

theorem EventNumbers.min {d : Daemon} (h : EventNumbers d.world.tables) (seq : UInt32)
    (hseq : d.EventSeq seq) : BHD_SEQ_EVT_MIN ≤ seq := by
  rcases hseq with hcounter | ⟨a, ha⟩
  · obtain ⟨n, hn⟩ := h.nextSeq
    have hnumber : seq = evtSeq n := hcounter.trans hn
    rw [hnumber]
    exact evtSeq_min n
  · obtain ⟨n, rfl⟩ := h.args a seq ha
    exact evtSeq_min n

theorem EventNumbers.draw {s s' : Gatts.State} (h : EventNumbers s)
    (hnext : s'.nextSeq = (nextEvtSeq s.nextSeq).2)
    (hargs : ∀ a seq, s'.attrArg a = some seq → seq = s.nextSeq ∨ s.attrArg a = some seq) :
    EventNumbers s' := by
  obtain ⟨n, hn⟩ := h.nextSeq
  refine ⟨⟨n + 1, by rw [hnext, hn, nextEvtSeq_evtSeq]⟩, ?_⟩
  intro a seq ha
  rcases hargs a seq ha with hnew | hold
  · exact ⟨n, hnew.trans hn⟩
  · exact h.args a seq hold

theorem eventNumbers_saving :
    Gatts.Saving (fun _ s => EventNumbers s) (fun _ s => EventNumbers s) where
  putSvc _ _ _ h := ⟨h.nextSeq, h.args⟩
  putChr chr _ s h := by
    apply h.draw rfl
    intro a seq ha
    rw [Gatts.attrArg_putChr] at ha
    split_ifs at ha with hnew
    · exact Or.inl (Option.some.inj ha).symm
    · exact Or.inr ha
  putDsc dsc _ s h := by
    apply h.draw rfl
    intro a seq ha
    rw [Gatts.attrArg_putDsc] at ha
    split_ifs at ha with hnew
    · exact Or.inl (Option.some.inj ha).symm
    · exact Or.inr ha
  endDscs _ _ h := ⟨h.nextSeq, h.args⟩
  endChr _ _ h := ⟨h.nextSeq, h.args⟩
  endChrs _ _ h := ⟨h.nextSeq, h.args⟩
  endSvcs _ _ h := ⟨h.nextSeq, h.args⟩

-- What a handler does to the numbers in the tables.
def KeepsNumbers (action : Action) : Prop :=
  ∀ host rsp world answer, action host rsp world = .ok answer →
    EventNumbers world.tables → EventNumbers answer.world.tables

-- The handlers that write no table.
def KeepsTables (action : Action) : Prop :=
  ∀ host rsp world answer, action host rsp world = .ok answer →
    answer.world.tables = world.tables

theorem KeepsTables.numbers {action : Action} (h : KeepsTables action) : KeepsNumbers action := by
  intro host rsp world answer hanswer hnumbers
  rw [h host rsp world answer hanswer]
  exact hnumbers

theorem callStatus_tables (call : HostCall) : KeepsTables (callStatus call) := by
  intro host rsp world answer h
  cases h
  rfl

theorem gapConnFind_tables (connHandle : UInt16) : KeepsTables (gapConnFind connHandle) := by
  intro host rsp world answer h
  unfold gapConnFind at h
  dsimp only at h
  split_ifs at h <;> cases h <;> rfl

theorem gapAdvFields_tables (r : AdvFieldsReq) : KeepsTables (gapAdvFields r) := by
  intro host rsp world answer h
  unfold gapAdvFields at h
  dsimp only at h
  split_ifs at h <;> cases h <;> rfl

theorem withMbuf_tables (data : List UInt8) (call : HostCall) :
    KeepsTables (withMbuf data call) := by
  intro host rsp world answer h
  unfold withMbuf at h
  split_ifs at h <;> cases h <;> rfl

theorem smInjectIo_tables (req : SmInjectIoReq) : KeepsTables (smInjectIo req) := by
  intro host rsp world answer h
  unfold smInjectIo at h
  split at h
  · cases h
    rfl
  · exact callStatus_tables _ host rsp world answer h

theorem gattsAccessStatus_tables (attStatus : UInt8) (data : List UInt8) (dataLen : Int) :
    KeepsTables (gattsAccessStatus attStatus data dataLen) := by
  intro host rsp world answer h
  cases h
  rfl

theorem gattsClearSvcs_numbers : KeepsNumbers gattsClearSvcs := by
  intro host rsp world answer h hnumbers
  cases h
  exact ⟨hnumbers.nextSeq, hnumbers.args⟩

theorem gattsAddSvcs_numbers (svcs : List Gatts.Svc) : KeepsNumbers (gattsAddSvcs svcs) := by
  intro host rsp world answer h hnumbers
  obtain ⟨⟨status, tables⟩, hadd, hanswer⟩ := (bind_ok _ _ _).mp h
  cases hanswer
  rcases Gatts.addSvcs_total svcs world.tables with ⟨hrefused, hsame⟩ | ⟨s', hadded⟩
  · rw [hsame] at hadd
    cases hadd
    exact hnumbers
  · rw [hadded] at hadd
    cases hadd
    exact eventNumbers_saving.add svcs world.tables _ hnumbers hadded

theorem commitSvcs_numbers (env : Gatts.CommitEnv) (s s' : Gatts.State) (rsp : Gatts.CommitRsp)
    (h : Gatts.commitSvcs env s = .ok (rsp, s')) (hnumbers : EventNumbers s) : EventNumbers s' := by
  have hwritten : EventNumbers { s with valHandles := env.valHandles } :=
    ⟨hnumbers.nextSeq, hnumbers.args⟩
  unfold Gatts.commitSvcs at h
  dsimp only at h
  split_ifs at h
  · cases h
    exact hnumbers
  · cases h
    exact hnumbers
  · cases h
    exact hwritten
  · cases h
    exact hwritten
  · obtain ⟨svcs, _, hlisting⟩ := (bind_ok _ _ _).mp h
    cases svcs with
    | some svcs =>
        cases hlisting
        exact hwritten
    | none =>
        obtain ⟨_, _, hlast⟩ := (bind_ok _ _ _).mp hlisting
        cases hlast
        exact hwritten

theorem gattsCommitSvcs_numbers : KeepsNumbers gattsCommitSvcs := by
  intro host rsp world answer h hnumbers
  obtain ⟨⟨commit, tables⟩, hcommit, hanswer⟩ := (bind_ok _ _ _).mp h
  cases hanswer
  exact commitSvcs_numbers _ _ _ _ hcommit hnumbers

theorem gattsFindChr_tables (svcUuid chrUuid : Uuid) :
    KeepsTables (gattsFindChr svcUuid chrUuid) := by
  intro host rsp world answer h
  cases h
  rfl

theorem idGenRandAddr_tables (nrpa : UInt8) : KeepsTables (idGenRandAddr nrpa) := by
  intro host rsp world answer h
  cases h
  rfl

theorem reqDispatchFind_numbers (type : MsgType) (run : ReqRun)
    (hrun : reqDispatchFind type = some run) (r : Req) : (run r).Returns KeepsNumbers := by
  cases type <;> cases hrun
  all_goals
    repeat
      apply returns_after
      intro _
    apply returns_done
  case sync =>
    intro host rsp world answer h hnumbers
    cases h
    exact hnumbers
  case reset =>
    intro host rsp world answer h hnumbers
    cases h
    exact hnumbers
  case write => exact (withMbuf_tables _ _).numbers
  case writeCmd => exact (withMbuf_tables _ _).numbers
  case genRandAddr => exact (idGenRandAddr_tables _).numbers
  case connFind => exact (gapConnFind_tables _).numbers
  case advFields => exact (gapAdvFields_tables _).numbers
  case clearSvcs => exact gattsClearSvcs_numbers
  case addSvcs => exact gattsAddSvcs_numbers _
  case commitSvcs => exact gattsCommitSvcs_numbers
  case accessStatus => exact (gattsAccessStatus_tables _ _ _).numbers
  case notify => exact (withMbuf_tables _ _).numbers
  case findChr => exact (gattsFindChr_tables _ _).numbers
  case smInjectIo => exact (smInjectIo_tables _).numbers
  all_goals exact (callStatus_tables _).numbers

theorem runReq_numbers (type : MsgType) (run : ReqRun) (hrun : reqDispatchFind type = some run)
    (r : Req) (host : Host) (rsp : Rsp) (world : World) (outcome : Outcome)
    (h : runReq run r host rsp world = .ok outcome) (hnumbers : EventNumbers world.tables) :
    EventNumbers outcome.answer.world.tables := by
  cases hresult : (run r).result with
  | error e =>
      rw [runReq_exit run r host rsp world e hresult] at h
      cases h
      exact hnumbers
  | ok action =>
      obtain ⟨answer, hanswer, rfl⟩ := (runReq_action run r host rsp world action hresult _).mp h
      exact reqDispatchFind_numbers type run hrun r action hresult host rsp world answer hanswer
        hnumbers

theorem reqOutcome_numbers (root : Option Json) (junk : Junk) (host : Host) (world : World)
    (outcome : Outcome) (h : reqOutcome root junk host world = .ok outcome)
    (hnumbers : EventNumbers world.tables) : EventNumbers outcome.answer.world.tables := by
  rcases reqOutcome_cases root junk host world with
    ⟨rc, msg, seq, hdec, -⟩ | ⟨json, type, seq, run, -, -, hrun, hdec, -⟩
  · rw [hdec] at h
    cases h
    exact hnumbers
  · rw [hdec] at h
    exact runReq_numbers type run hrun _ host _ world outcome h hnumbers

theorem processReq_numbers (lib : Externs) (packet : Mbuf) (junk : Junk) (host : Host)
    (d next : Daemon) (h : processReq lib packet junk host d = .ok next)
    (hnumbers : EventNumbers d.world.tables) : EventNumbers next.world.tables := by
  obtain ⟨outcome, hdec, hsend⟩ := (bind_ok _ _ _).mp h
  have houtcome := reqOutcome_numbers _ junk host d.world outcome
    (reqDec_outcome junk host d.world hdec) hnumbers
  split_ifs at hsend
  · cases hsend
    exact houtcome
  · obtain ⟨_, _, hlast⟩ := (bind_ok _ _ _).mp hsend
    cases hlast
    exact houtcome

theorem step_numbers (lib : Externs) (d : Daemon) (event : Event) (next : Daemon)
    (hnumbers : EventNumbers d.world.tables) (h : step lib d event = some next) :
    EventNumbers next.world.tables := by
  cases event with
  | request packet junk host =>
      have hprocess : processReq lib packet junk host d = .ok next := by
        cases hresult : processReq lib packet junk host d with
        | error fault =>
            rw [step, hresult] at h
            cases h
        | ok other =>
            rw [step, hresult] at h
            exact congrArg Except.ok (Option.some.inj h)
      exact processReq_numbers lib packet junk host d next hprocess hnumbers
  | accessWake =>
      unfold step at h
      dsimp only at h
      split_ifs at h
      cases h
      exact hnumbers
  | accessReset =>
      cases h
      exact hnumbers
  | evtSeq =>
      cases h
      exact hnumbers.draw rfl fun _ _ ha => Or.inr ha
  | evtSend json =>
      cases h
      exact hnumbers
  | rspTaken =>
      cases hmq : d.rspMq with
      | nil =>
          simp only [step, hmq] at h
          cases h
      | cons rsp rest =>
          simp only [step, hmq] at h
          cases h
          exact hnumbers

theorem eventNumbers_initial : EventNumbers Daemon.initial.world.tables where
  nextSeq := ⟨0, rfl⟩
  args a seq h := by
    have hnone := (Gatts.numbered_initial.args a seq).mp h
    obtain ⟨_, hmem, _⟩ := hnone
    exact absurd hmem List.not_mem_nil

theorem run_numbers (lib : Externs) (events : List Event) (d : Daemon)
    (hrun : Transition.run (step lib) Daemon.initial events = some d) :
    EventNumbers d.world.tables :=
  Transition.run_keeps (step_numbers lib) _ d events eventNumbers_initial hrun

theorem jsonInt_bounds (minval maxval : Int) (parent : Json) (name : String) (n : Int)
    (h : jsonInt minval maxval parent name = .ok n) : minval ≤ n ∧ n ≤ maxval := by
  unfold jsonInt jsonIntBounds at h
  cases hitem : parent.getObjectItem name with
  | none =>
      rw [hitem] at h
      cases h
  | some item =>
      rw [hitem] at h
      dsimp only [processJsonIntBounds] at h
      split_ifs at h with hrc hbounds
      · cases hint : (processJsonInt item).2 with
        | none => exact absurd hint hrc
        | some e =>
            rw [hint] at h
            cases h
      · cases h
      · obtain rfl : _ = n := Except.ok.inj h
        omega

-- The header decoder takes every number up to BHD_SEQ_MAX.
theorem msgHdrDec_seq_le (root : Json) (hdr : MsgHdr) (h : msgHdrDec root = .ok hdr) :
    hdr.seq ≤ BHD_SEQ_MAX := by
  obtain ⟨n, -, -, hseq, hstored⟩ := msgHdrDec_ok root hdr h
  obtain ⟨hmin, hmax⟩ := jsonInt_bounds _ _ _ _ _ hseq
  have hvalue := toNat_ofInt_seq n hmin hmax
  rw [hstored]
  show (UInt32.ofInt n).toNat ≤ BHD_SEQ_MAX.toNat
  omega

theorem acceptedSeqs_le (lib : Externs) (events : List Event) (seq : UInt32)
    (h : seq ∈ acceptedSeqs lib events) : seq ≤ BHD_SEQ_MAX := by
  obtain ⟨event, _, hevent⟩ := List.mem_filterMap.mp h
  cases event with
  | request packet junk host =>
      obtain ⟨root, _, hroot⟩ := Option.bind_eq_some_iff.mp hevent
      obtain ⟨hdr, hhdr, rfl⟩ := Option.map_eq_some_iff.mp hroot
      apply msgHdrDec_seq_le root hdr
      cases hresult : msgHdrDec root with
      | error e =>
          rw [hresult] at hhdr
          cases hhdr
      | ok other =>
          rw [hresult] at hhdr
          exact congrArg Except.ok (Option.some.inj hhdr)
  | accessWake => cases hevent
  | accessReset => cases hevent
  | evtSeq => cases hevent
  | evtSend json => cases hevent
  | rspTaken => cases hevent

-- Every number of the range for events comes up in each round of the counter.
theorem evtSeq_of_range (seq : UInt32) (hmin : BHD_SEQ_EVT_MIN ≤ seq) (hmax : seq ≤ BHD_SEQ_MAX) :
    ∃ k, evtSeq k = seq := by
  have hminNat : BHD_SEQ_EVT_MIN.toNat ≤ seq.toNat := hmin
  have hmaxNat : seq.toNat ≤ BHD_SEQ_MAX.toNat := hmax
  refine ⟨seq.toNat - BHD_SEQ_EVT_MIN.toNat, ?_⟩
  rw [← UInt32.toNat_inj, evtSeq_toNat, Nat.mod_eq_of_lt]
  · omega
  · unfold EVT_SEQ_PERIOD
    omega

theorem run_evtSeq (lib : Externs) (count k : Nat) (d : Daemon)
    (h : d.world.tables.nextSeq = evtSeq k) : ∃ next,
    Transition.run (step lib) d (List.replicate count .evtSeq) = some next ∧
      next.world.tables.nextSeq = evtSeq (k + count) := by
  induction count generalizing k d with
  | zero => exact ⟨d, rfl, h⟩
  | succ count ih =>
      let tables := { d.world.tables with nextSeq := (nextEvtSeq d.world.tables.nextSeq).2 }
      have hnext : tables.nextSeq = evtSeq (k + 1) := by
        show (nextEvtSeq d.world.tables.nextSeq).2 = _
        rw [h, nextEvtSeq_evtSeq]
      obtain ⟨next, hrun, hlast⟩ :=
        ih (k + 1) { d with world := { d.world with tables := tables } } hnext
      refine ⟨next, hrun, ?_⟩
      rw [hlast, Nat.add_right_comm, Nat.add_assoc]

theorem event_seqs_apart (lib : Externs) :
    (∀ before after d last, Transition.run (step lib) Daemon.initial before = some d →
      Transition.run (step lib) d after = some last →
      (∀ seq ∈ acceptedSeqs lib (before ++ after), seq < BHD_SEQ_EVT_MIN) →
      ∀ seq ∈ acceptedSeqs lib (before ++ after), ¬d.EventSeq seq) ∧
    ∀ events last seq, Transition.run (step lib) Daemon.initial events = some last →
      seq ∈ acceptedSeqs lib events → ¬seq < BHD_SEQ_EVT_MIN →
      ∃ count next, Transition.run (step lib) last (List.replicate count .evtSeq) = some next ∧
        next.EventSeq seq := by
  constructor
  · intro before after d last hbefore _ hbelow seq hmem hseq
    have hmin := (run_numbers lib before d hbefore).min seq hseq
    exact absurd (hbelow seq hmem) (UInt32.not_lt.mpr hmin)
  · intro events last seq hrun hmem hrange
    obtain ⟨n, hn⟩ := (run_numbers lib events last hrun).nextSeq
    obtain ⟨k, rfl⟩ := evtSeq_of_range seq (UInt32.not_lt.mp hrange)
      (acceptedSeqs_le lib events seq hmem)
    -- The counter is n calls on, and comes to k in one of the rounds after that.
    obtain ⟨next, hnext, hlast⟩ := run_evtSeq lib (n * 240 + k) n last hn
    refine ⟨_, next, hnext, Or.inl ?_⟩
    show evtSeq k = next.world.tables.nextSeq
    rw [hlast, evtSeq_inj]
    have hrounds : n + (n * 240 + k) = k + n * EVT_SEQ_PERIOD := by
      have hperiod : EVT_SEQ_PERIOD = 241 := rfl
      rw [hperiod]
      omega
    rw [hrounds, Nat.add_mul_mod_self_right]

def syncExterns (seq : Int) : Externs :=
  ⟨fun _ => some (headerOf "request" "sync" seq), fun _ => [], canonicalUuid⟩

def syncRequest : Event :=
  .request [123] zeroJunk acceptingHost

theorem sync_seq_apart : ∃ d,
    Transition.run (step (syncExterns 7)) Daemon.initial [syncRequest, .evtSeq] = some d ∧
    ¬d.EventSeq 7 := by
  have hrun : ∃ d,
      Transition.run (step (syncExterns 7)) Daemon.initial [syncRequest, .evtSeq] = some d :=
    ⟨_, rfl⟩
  obtain ⟨d, hd⟩ := hrun
  have haccepted : acceptedSeqs (syncExterns 7) ([syncRequest, .evtSeq] ++ []) = [7] := rfl
  refine ⟨d, hd, ?_⟩
  apply (event_seqs_apart (syncExterns 7)).1 _ [] d d hd rfl
  · rw [haccepted]
    intro seq hmem
    rw [List.mem_singleton.mp hmem]
    decide
  · rw [haccepted]
    exact List.mem_singleton_self 7

-- The number of the request is the one of the first event.
theorem sync_seq_taken : ∃ d,
    Transition.run (step (syncExterns 0xffffff00)) Daemon.initial [syncRequest] = some d ∧
    acceptedSeqs (syncExterns 0xffffff00) [syncRequest] = [0xffffff00] ∧
    d.EventSeq 0xffffff00 :=
  ⟨_, rfl, rfl, Or.inl rfl⟩

end Blehostd
