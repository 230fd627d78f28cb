import Blehostd.Gatts.Commit.Theorems
import Blehostd.Gatts.Registry

namespace Blehostd.Gatts

-- The places from which bhd_gatts_commit_svcs goes to its error label.
inductive FailurePoint where
  | countCfg
  | addSvcs
  | start
  | callocSvcs
  | callocChrs (si : Nat)
deriving DecidableEq, Repr

namespace FailurePoint

-- Here the host has answered with an error, which rc then holds.
def Refusal : FailurePoint → Prop
  | countCfg | addSvcs | start => True
  | callocSvcs | callocChrs _ => False

end FailurePoint

-- The commit gets to the place, and what is tried there fails. The services in
-- front of the one without memory have been listed by then.
def CommitEnv.FailsAt (env : CommitEnv) (s : State) : FailurePoint → Prop
  | .countCfg => env.countCfg ≠ 0
  | .addSvcs => env.countCfg = 0 ∧ env.addSvcs ≠ 0
  | .start => env.countCfg = 0 ∧ env.addSvcs = 0 ∧ env.start ≠ 0
  | .callocSvcs => env.countCfg = 0 ∧ env.addSvcs = 0 ∧ env.start = 0 ∧ env.callocSvcs = false
  | .callocChrs si => env.Starts ∧ si < s.numSvcs - 1 ∧ env.callocChrs si = false ∧
      (∃ svcs, commitLoop env { s with valHandles := env.valHandles } si 0 = .ok (some svcs)) ∧
      commitSvc env { s with valHandles := env.valHandles } si = .ok none

-- An error and no services in the response, and no fault on the way to it.
def ReportsFailure (env : CommitEnv) (s : State) : Prop :=
  ∃ rsp s', commitSvcs env s = .ok (rsp, s') ∧ rsp.status ≠ 0 ∧ rsp.svcs = []

-- The loop ends without a listing at the first service without memory.
theorem commitLoop_none_iff (env : CommitEnv) (s : State) (n i : Nat) :
    commitLoop env s n i = .ok none ↔
      ∃ k < n, (∃ svcs, commitLoop env s k i = .ok (some svcs)) ∧
        commitSvc env s (i + k) = .ok none := by
  induction n generalizing i with
  | zero =>
      constructor
      · intro h
        cases h
      · rintro ⟨k, hk, -⟩
        exact absurd hk (Nat.not_lt_zero k)
  | succ n ih =>
      rw [commitLoop_succ]
      constructor
      · rintro (⟨hnone, -⟩ | ⟨first, rest, hfirst, hrest, hmap⟩)
        · exact ⟨0, Nat.succ_pos n, ⟨[], rfl⟩, hnone⟩
        · obtain rfl := Option.map_eq_none_iff.mp hmap.symm
          obtain ⟨k, hk, ⟨svcs, hsvcs⟩, hnone⟩ := (ih (i + 1)).mp hrest
          refine ⟨k + 1, by omega, ⟨first :: svcs, ?_⟩, ?_⟩
          · exact (commitLoop_succ env s k i _).mpr (Or.inr ⟨first, _, hfirst, hsvcs, rfl⟩)
          · rwa [← Nat.succ_add_eq_add_succ]
      · rintro ⟨k, hk, ⟨svcs, hsvcs⟩, hnone⟩
        cases k with
        | zero => exact Or.inl ⟨hnone, rfl⟩
        | succ k =>
            obtain ⟨first, rest, hfirst, hrest, -⟩ := commitLoop_some env s k i svcs hsvcs
            rw [← Nat.succ_add_eq_add_succ] at hnone
            have hlater := (ih (i + 1)).mpr ⟨k, by omega, ⟨rest, hrest⟩, hnone⟩
            exact Or.inr ⟨first, none, hfirst, hlater, rfl⟩

theorem commitSvcs_countCfg (env : CommitEnv) (s : State) (hpos : 0 < s.numSvcs)
    (h : env.FailsAt s .countCfg) : commitSvcs env s = .ok (⟨env.countCfg, []⟩, s) :=
  if_pos ⟨hpos, h⟩

theorem commitSvcs_addSvcs (env : CommitEnv) (s : State) (hpos : 0 < s.numSvcs)
    (h : env.FailsAt s .addSvcs) : commitSvcs env s = .ok (⟨env.addSvcs, []⟩, s) := by
  obtain ⟨hcount, hadd⟩ := h
  simp [commitSvcs, hcount, hpos, hadd]

theorem commitSvcs_start (env : CommitEnv) (s : State) (h : env.FailsAt s .start) :
    commitSvcs env s = .ok (⟨env.start, []⟩, { s with valHandles := env.valHandles }) := by
  obtain ⟨hcount, hadd, hstart⟩ := h
  simp [commitSvcs, hcount, hadd, hstart]

-- Nothing has set rc since ble_gatts_start returned 0.
theorem commitSvcs_callocSvcs (env : CommitEnv) (s : State) (h : env.FailsAt s .callocSvcs) :
    commitSvcs env s = .ok (⟨0, []⟩, { s with valHandles := env.valHandles }) := by
  obtain ⟨hcount, hadd, hstart, halloc⟩ := h
  simp [commitSvcs, hcount, hadd, hstart, halloc]

theorem commitSvcs_callocChrs (env : CommitEnv) (s : State) (si : Nat) (hpos : 0 < s.numSvcs)
    (h : env.FailsAt s (.callocChrs si)) : commitSvcs env s = .error .outOfBounds := by
  obtain ⟨hstarts, hlt, -, hlisted, hnone⟩ := h
  rw [commitSvcs_starts env s hstarts hpos]
  refine commitListing_none env _ hpos ((commitLoop_none_iff env _ _ 0).mpr ?_)
  exact ⟨si, hlt, hlisted, by rwa [Nat.zero_add]⟩

-- There is no other place: a commit that fails at none of them either lists
-- the services or meets a record that it cannot read.
theorem commitSvcs_points (env : CommitEnv) (s : State) (hpos : 0 < s.numSvcs) :
    (∃ point, env.FailsAt s point) ∨
      (∃ svcs s', commitSvcs env s = .ok (⟨0, svcs⟩, s')) ∨
      ∃ fault, commitLoop env { s with valHandles := env.valHandles } (s.numSvcs - 1) 0 =
        .error fault := by
  by_cases hcount : env.countCfg = 0
  swap
  · exact Or.inl ⟨.countCfg, hcount⟩
  by_cases hadd : env.addSvcs = 0
  swap
  · exact Or.inl ⟨.addSvcs, hcount, hadd⟩
  by_cases hstart : env.start = 0
  swap
  · exact Or.inl ⟨.start, hcount, hadd, hstart⟩
  cases halloc : env.callocSvcs with
  | false => exact Or.inl ⟨.callocSvcs, hcount, hadd, hstart, halloc⟩
  | true =>
      have hstarts : env.Starts := ⟨hcount, hadd, hstart, halloc⟩
      cases hloop : commitLoop env { s with valHandles := env.valHandles } (s.numSvcs - 1) 0 with
      | error fault => exact Or.inr (Or.inr ⟨fault, rfl⟩)
      | ok listed =>
          cases listed with
          | none =>
              obtain ⟨si, hlt, hlisted, hnone⟩ := (commitLoop_none_iff env _ _ 0).mp hloop
              rw [Nat.zero_add] at hnone
              have halloc := commitSvc_alloc env _ si none hnone
              exact Or.inl ⟨.callocChrs si, hstarts, hlt, halloc, hlisted, hnone⟩
          | some svcs =>
              refine Or.inr (Or.inl ⟨svcs, { s with valHandles := env.valHandles }, ?_⟩)
              exact (commitSvcs_iff env s hstarts hpos _).mpr ⟨svcs, hloop, rfl⟩

theorem not_reports_callocSvcs (env : CommitEnv) (s : State) (h : env.FailsAt s .callocSvcs) :
    ¬ReportsFailure env s := by
  rintro ⟨rsp, s', hcommit, hstatus, -⟩
  rw [commitSvcs_callocSvcs env s h] at hcommit
  obtain ⟨rfl, -⟩ := Prod.mk.inj (Except.ok.inj hcommit)
  exact hstatus rfl

theorem not_reports_callocChrs (env : CommitEnv) (s : State) (si : Nat) (hpos : 0 < s.numSvcs)
    (h : env.FailsAt s (.callocChrs si)) : ¬ReportsFailure env s := by
  rintro ⟨rsp, s', hcommit, -⟩
  rw [commitSvcs_callocChrs env s si hpos h] at hcommit
  cases hcommit

-- A failure is reported exactly when it is the host that has refused.
theorem reportsFailure_iff_refusal (env : CommitEnv) (s : State) (point : FailurePoint)
    (hpos : 0 < s.numSvcs) (hfails : env.FailsAt s point) :
    ReportsFailure env s ↔ point.Refusal := by
  cases point with
  | countCfg =>
      have hcommit := commitSvcs_countCfg env s hpos hfails
      exact iff_of_true ⟨_, _, hcommit, hfails, rfl⟩ trivial
  | addSvcs =>
      have hcommit := commitSvcs_addSvcs env s hpos hfails
      exact iff_of_true ⟨_, _, hcommit, hfails.2, rfl⟩ trivial
  | start =>
      have hcommit := commitSvcs_start env s hfails
      exact iff_of_true ⟨_, _, hcommit, hfails.2.2, rfl⟩ trivial
  | callocSvcs => exact iff_of_false (not_reports_callocSvcs env s hfails) id
  | callocChrs si => exact iff_of_false (not_reports_callocChrs env s si hpos hfails) id

-- The host takes no service.
def refusesSvcs : CommitEnv :=
  { allSucceed with addSvcs := BLE_HS_ENOMEM }

def noMemorySvcs : CommitEnv :=
  { allSucceed with callocSvcs := false }

def noMemoryChrs : CommitEnv :=
  { allSucceed with callocChrs := fun _ => false }

theorem reportsFailure_iff_refusal_battery : ∃ r,
    Registry.initial.run [.add [battery]] = .ok r ∧
    (ReportsFailure refusesSvcs r.tables ↔ FailurePoint.addSvcs.Refusal) := by
  have hrun : ∃ r, Registry.initial.run [.add [battery]] = .ok r ∧ 0 < r.tables.numSvcs :=
    ⟨_, rfl, by decide⟩
  obtain ⟨r, hr, hpos⟩ := hrun
  have hfails : refusesSvcs.FailsAt r.tables .addSvcs := ⟨rfl, by decide⟩
  exact ⟨r, hr, reportsFailure_iff_refusal refusesSvcs r.tables .addSvcs hpos hfails⟩

-- Without memory for the services the response reports success, and without
-- memory for their characteristics the cleanup loop reads past the services.
theorem failed_commit_unreported : ∃ r, Registry.initial.run [.add [battery]] = .ok r ∧
    (noMemorySvcs.FailsAt r.tables .callocSvcs ∧ ¬ReportsFailure noMemorySvcs r.tables) ∧
    (noMemoryChrs.FailsAt r.tables (.callocChrs 0) ∧ ¬ReportsFailure noMemoryChrs r.tables) := by
  have hrun : ∃ r, Registry.initial.run [.add [battery]] = .ok r ∧ 0 < r.tables.numSvcs ∧
      noMemoryChrs.FailsAt r.tables (.callocChrs 0) :=
    ⟨_, rfl, by decide, ⟨rfl, rfl, rfl, rfl⟩, by decide, rfl, ⟨[], rfl⟩, rfl⟩
  obtain ⟨r, hr, hpos, hchrs⟩ := hrun
  have hsvcs : noMemorySvcs.FailsAt r.tables .callocSvcs := ⟨rfl, rfl, rfl, rfl⟩
  exact ⟨r, hr, ⟨hsvcs, not_reports_callocSvcs _ _ hsvcs⟩,
    hchrs, not_reports_callocChrs _ _ 0 hpos hchrs⟩

end Blehostd.Gatts
