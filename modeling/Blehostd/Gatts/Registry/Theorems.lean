import Blehostd.Gatts.Commit.Theorems
import Blehostd.Gatts.Registry

namespace Blehostd.Gatts

namespace Registry

-- Every slot of a committed record holds what it held, and no characteristic
-- saved since then has its value handle in one of them.
structure Preserved (r later : Registry) : Prop where
  svcs : ∀ i, i < r.committed.svcs → later.tables.svcs i = r.tables.svcs i
  chrs : ∀ i, i < r.committed.chrs → later.tables.chrs i = r.tables.chrs i
  dscs : ∀ i, i < r.committed.dscs → later.tables.dscs i = r.tables.dscs i
  uuids : ∀ i, i < r.committed.uuids → later.tables.uuids i = r.tables.uuids i
  valHandles : ∀ i slot, later.tables.chrs i ≠ r.tables.chrs i →
    (later.tables.chrs i).valHandle = some slot → r.committed.valHandles ≤ slot

-- The clear is reported as failed, and the committed records stay as they are
-- whatever is added after it.
def FailedClearSafe (r : Registry) (reset : Int) : Prop :=
  ∃ status cleared, r.step (.clear reset) = .ok (status, cleared) ∧ status ≠ 0 ∧
    ∀ (adds : List (List Svc)) later, cleared.run (adds.map Request.add) = .ok later →
      r.Preserved later

def otherType (svc : SvcDef) : SvcType :=
  if svc.type = SvcType.primary.code then .secondary else .primary

theorem otherType_code (svc : SvcDef) : (otherType svc).code ≠ svc.type := by
  by_cases htype : svc.type = SvcType.primary.code
  · rw [otherType, if_pos htype, htype]
    decide
  · rw [otherType, if_neg htype]
    exact fun heq => htype heq.symm

-- The failed clear sets the counters back, so the next service is saved over
-- the first one that the host still uses.
theorem add_after_clear_overwrites (s : State) (reset : Int) :
    ∃ svc s', addSvcs [svc] (clearSvcs reset s).2 = .ok (0, s') ∧ s'.svcs 0 ≠ s.svcs 0 := by
  let svc : Svc := ⟨otherType (s.svcs 0), .u16 0, []⟩
  have hrc : verifyResourceCnt [svc] (clearSvcs reset s).2 = 0 := rfl
  rcases addSvcs_total [svc] (clearSvcs reset s).2 with hrefused | haccepted
  · exact absurd hrc hrefused.1
  · obtain ⟨s', h⟩ := haccepted
    obtain ⟨u, _, _, hrecord⟩ := (addSvcs_added _ _ _ h).stored.1.record
    refine ⟨svc, s', h, ?_⟩
    intro heq
    have htype := congrArg SvcDef.type (hrecord.symm.trans heq)
    exact absurd htype (otherType_code (s.svcs 0))

theorem run_cons_add (r : Registry) (svcs : List Svc) (rest : List Request) (status : Int)
    (s' : State) (h : addSvcs svcs r.tables = .ok (status, s')) :
    r.run (.add svcs :: rest) = Registry.run { r with tables := s' } rest := by
  simp only [run, List.foldlM_cons, step, h, bind, Except.bind, Except.map]

theorem run_add (r : Registry) (svcs : List Svc) (status : Int) (s' : State)
    (h : addSvcs svcs r.tables = .ok (status, s')) :
    r.run [.add svcs] = .ok { r with tables := s' } :=
  run_cons_add r svcs [] status s' h

theorem step_failed_clear (r : Registry) (reset : Int) (hreset : reset ≠ 0) :
    r.step (.clear reset) = .ok (0, ⟨(clearSvcs reset r.tables).2, r.committed⟩) := by
  simp only [step, if_neg hreset]
  rfl

-- Whatever was committed, a clear that the host refuses is answered with status
-- 0, and if anything was committed then one more request overwrites it.
theorem failed_clear_not_safe (r : Registry) (reset : Int) (hreset : reset ≠ 0) :
    ¬r.FailedClearSafe reset ∧ (0 < r.committed.svcs → ∃ cleared svc later,
      r.step (.clear reset) = .ok (0, cleared) ∧ cleared.run [.add [svc]] = .ok later ∧
        ¬r.Preserved later) := by
  have hstep := step_failed_clear r reset hreset
  refine ⟨?_, ?_⟩
  · intro hsafe
    obtain ⟨status, cleared, hcleared, hstatus, _⟩ := hsafe
    have hzero := Except.ok.inj (hstep.symm.trans hcleared)
    exact hstatus (congrArg Prod.fst hzero).symm
  · intro hcommitted
    obtain ⟨svc, s', hadd, hne⟩ := add_after_clear_overwrites r.tables reset
    refine ⟨_, svc, _, hstep, run_add _ [svc] 0 s' hadd, ?_⟩
    intro hpreserved
    exact hne (hpreserved.svcs 0 hcommitted)

-- A committed service, a clear that the host refuses, and a request that overwrites it.
theorem failed_clear_not_safe_committed : ∃ r cleared svc later,
    initial.run [.add [battery], .commit allSucceed] = .ok r ∧ ¬r.FailedClearSafe 15 ∧
      r.step (.clear 15) = .ok (0, cleared) ∧ cleared.run [.add [svc]] = .ok later ∧
      ¬r.Preserved later := by
  have hrun : ∃ r, initial.run [.add [battery], .commit allSucceed] = .ok r ∧
      0 < r.committed.svcs := ⟨_, rfl, by decide⟩
  obtain ⟨r, hr, hcommitted⟩ := hrun
  obtain ⟨hfailed, hoverwrites⟩ := failed_clear_not_safe r 15 (by decide)
  obtain ⟨cleared, svc, later, hcleared, hlater, hlost⟩ := hoverwrites hcommitted
  exact ⟨r, cleared, svc, later, hr, hfailed, hcleared, hlater, hlost⟩

-- One service is added and committed. The host refuses the reset, the clear is
-- answered with status 0, and the next service takes slot 0 from the first.
theorem busy_clear_overwrites : ∃ r cleared later,
    initial.run [.add [battery], .commit allSucceed] = .ok r ∧
      r.step (.clear 15) = .ok (0, cleared) ∧
      cleared.run [.add [emptySvc 0x180d]] = .ok later ∧
      r.committed.uuids = 2 ∧ later.tables.uuids 0 ≠ r.tables.uuids 0 ∧
      ¬r.FailedClearSafe 15 := by
  refine ⟨_, _, _, rfl, rfl, rfl, rfl, by decide, ?_⟩
  intro hsafe
  obtain ⟨status, cleared, hcleared, hstatus, _⟩ := hsafe
  exact hstatus (congrArg Prod.fst (Except.ok.inj hcleared)).symm

end Registry

end Blehostd.Gatts
