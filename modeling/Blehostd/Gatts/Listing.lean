import Blehostd.Gatts.Commit

namespace Blehostd.Gatts

-- What a commit has to list: the services and characteristics that the records
-- of the tables stand for, with the value handles of the host.
structure ListedChr where
  uuid : Uuid
  valHandle : UInt16
deriving DecidableEq, Repr

structure ListedSvc where
  uuid : Uuid
  chrs : List ListedChr
deriving DecidableEq, Repr

structure ListsChr (s : State) (i : Nat) (chr : ListedChr) : Prop where
  uuid : ∃ u, (s.chrs i).uuid = some u ∧ s.uuids u = .known chr.uuid
  valHandle : ∃ slot, (s.chrs i).valHandle = some slot ∧ slot < BHD_GATTS_MAX_VAL_HANDLES ∧
    s.valHandles slot = chr.valHandle

-- The records from slot `i` to the terminator.
def ListsChrs (s : State) : Nat → List ListedChr → Prop
  | i, [] => i < BHD_GATTS_MAX_CHRS ∧ (s.chrs i).uuid = none
  | i, chr :: rest => ListsChr s i chr ∧ ListsChrs s (i + 1) rest

structure ListsSvc (s : State) (i : Nat) (svc : ListedSvc) : Prop where
  uuid : ∃ u, (s.svcs i).uuid = some u ∧ s.uuids u = .known svc.uuid
  chrs : ∃ c, (s.svcs i).characteristics = some c ∧ ListsChrs s c svc.chrs

def ListsSvcs (s : State) : Nat → List ListedSvc → Prop
  | _, [] => True
  | i, svc :: rest => ListsSvc s i svc ∧ ListsSvcs s (i + 1) rest

def ListedChr.entry (chr : ListedChr) : CommitChr :=
  ⟨.known chr.uuid, chr.valHandle - 1, chr.valHandle, []⟩

def ListedSvc.entry (svc : ListedSvc) : CommitSvc :=
  ⟨.known svc.uuid, 0, svc.chrs.map ListedChr.entry⟩

theorem ListsChrs.lt {s : State} {i : Nat} {chrs : List ListedChr} (h : ListsChrs s i chrs) :
    i + chrs.length < BHD_GATTS_MAX_CHRS := by
  induction chrs generalizing i with
  | nil => exact h.1
  | cons chr rest ih =>
      have := ih h.2
      simp only [List.length_cons]
      omega

theorem countChrs_lists (s : State) (left i : Nat) (chrs : List ListedChr)
    (h : ListsChrs s i chrs) (hleft : left = BHD_GATTS_MAX_CHRS - i) :
    countChrs s left i = .ok chrs.length := by
  have hlt := h.lt
  induction chrs generalizing left i with
  | nil =>
      obtain ⟨left, rfl⟩ : ∃ n, left = n + 1 := ⟨left - 1, by simp at hlt; omega⟩
      exact if_pos h.2
  | cons chr rest ih =>
      obtain ⟨left, rfl⟩ : ∃ n, left = n + 1 := ⟨left - 1, by omega⟩
      obtain ⟨u, huuid, _⟩ := h.1.uuid
      have hsome : (s.chrs i).uuid ≠ none := by simp [huuid]
      rw [countChrs, if_neg hsome, ih left (i + 1) h.2 (by omega) h.2.lt]
      rfl

theorem commitChr_lists (s : State) (i : Nat) (chr : ListedChr) (h : ListsChr s i chr) :
    commitChr s i = .ok chr.entry := by
  obtain ⟨u, huuid, hknown⟩ := h.uuid
  obtain ⟨slot, hslot, hbound, hhandle⟩ := h.valHandle
  have hroom : require (slot < BHD_GATTS_MAX_VAL_HANDLES) .outOfBounds = .ok () := if_pos hbound
  simp only [commitChr, huuid, hslot, derefUuid, derefValHandle, hroom, hknown, hhandle]
  rfl

theorem commitChrs_lists (s : State) (i : Nat) (chrs : List ListedChr) (h : ListsChrs s i chrs) :
    commitChrs s chrs.length i = .ok (chrs.map ListedChr.entry) := by
  induction chrs generalizing i with
  | nil => rfl
  | cons chr rest ih =>
      rw [List.length_cons, commitChrs, commitChr_lists s i chr h.1]
      simp only [bind, Except.bind, ih (i + 1) h.2]
      rfl

theorem commitSvc_lists (env : CommitEnv) (s : State) (i : Nat) (svc : ListedSvc)
    (h : ListsSvc s i svc) (halloc : env.callocChrs i = true) :
    commitSvc env s i = .ok (some svc.entry) := by
  obtain ⟨u, huuid, hknown⟩ := h.uuid
  obtain ⟨c, hpointer, hchrs⟩ := h.chrs
  simp only [commitSvc, huuid, hpointer, derefUuid, hknown,
    countChrs_lists s _ c svc.chrs hchrs rfl, commitChrs_lists s c svc.chrs hchrs, halloc, bind,
    Except.bind]
  rfl

theorem commitLoop_lists (env : CommitEnv) (s : State) (i : Nat) (svcs : List ListedSvc)
    (h : ListsSvcs s i svcs)
    (halloc : ∀ si, i ≤ si → si < i + svcs.length → env.callocChrs si = true) :
    commitLoop env s svcs.length i = .ok (some (svcs.map ListedSvc.entry)) := by
  induction svcs generalizing i with
  | nil => rfl
  | cons svc rest ih =>
      rw [List.length_cons] at halloc ⊢
      have hfirst := commitSvc_lists env s i svc h.1 (halloc i (Nat.le_refl i) (by omega))
      have hrest := ih (i + 1) h.2 fun si hlower hupper => halloc si (by omega) (by omega)
      rw [commitLoop, hfirst]
      simp only [bind, Except.bind, hrest]
      rfl

-- The other direction: a commit that completes and reports no broken UUID has
-- found a listing.
def CommitChr.Known (chr : CommitChr) : Prop :=
  ∃ uuid, chr.uuid = .known uuid

def CommitSvc.Known (svc : CommitSvc) : Prop :=
  (∃ uuid, svc.uuid = .known uuid) ∧ ∀ chr ∈ svc.chrs, chr.Known

theorem copy_zero_known (src : UuidAny) (uuid : Uuid) (h : UuidAny.zero.copy src = .known uuid) :
    src = .known uuid := by
  cases src with
  | known other => exact h
  | other type => cases h

theorem derefUuid_ok (s : State) (p : Option Nat) (uuid : UuidAny)
    (h : derefUuid s p = .ok uuid) : ∃ u, p = some u ∧ s.uuids u = uuid := by
  cases p with
  | none => cases h
  | some u => exact ⟨u, rfl, Except.ok.inj h⟩

theorem derefValHandle_ok (s : State) (p : Option Nat) (valHandle : UInt16)
    (h : derefValHandle s p = .ok valHandle) :
    ∃ slot, p = some slot ∧ slot < BHD_GATTS_MAX_VAL_HANDLES ∧ s.valHandles slot = valHandle := by
  cases p with
  | none => cases h
  | some slot =>
      simp only [derefValHandle, bind_ok, require_ok, exists_const, Except.ok.injEq] at h
      exact ⟨slot, rfl, h⟩

theorem countChrs_ok (s : State) (left i n : Nat) (h : countChrs s left i = .ok n) :
    n < left ∧ (s.chrs (i + n)).uuid = none := by
  induction left generalizing i n with
  | zero => cases h
  | succ left ih =>
      by_cases hend : (s.chrs i).uuid = none
      · rw [countChrs, if_pos hend] at h
        obtain rfl : 0 = n := Except.ok.inj h
        exact ⟨Nat.succ_pos left, hend⟩
      · rw [countChrs, if_neg hend] at h
        cases hrest : countChrs s left (i + 1) with
        | error fault =>
            rw [hrest] at h
            cases h
        | ok m =>
            rw [hrest] at h
            obtain rfl : m + 1 = n := Except.ok.inj h
            obtain ⟨hlt, hnone⟩ := ih (i + 1) m hrest
            exact ⟨by omega, by rw [← hnone]; congr 2; omega⟩

theorem commitChr_ok (s : State) (i : Nat) (entry : CommitChr) (h : commitChr s i = .ok entry)
    (hknown : entry.Known) : ∃ chr, ListsChr s i chr ∧ entry = chr.entry := by
  simp only [commitChr, bind_ok, Except.ok.injEq] at h
  obtain ⟨src, hsrc, valHandle, hvalHandle, rfl⟩ := h
  obtain ⟨uuid, huuid⟩ := hknown
  obtain rfl := copy_zero_known src uuid huuid
  exact ⟨⟨uuid, valHandle⟩, ⟨derefUuid_ok _ _ _ hsrc, derefValHandle_ok _ _ _ hvalHandle⟩, rfl⟩

theorem commitChrs_ok (s : State) (n i : Nat) (entries : List CommitChr)
    (h : commitChrs s n i = .ok entries) (hknown : ∀ entry ∈ entries, entry.Known)
    (hlt : i + n < BHD_GATTS_MAX_CHRS) (hend : (s.chrs (i + n)).uuid = none) :
    ∃ chrs, ListsChrs s i chrs ∧ entries = chrs.map ListedChr.entry := by
  induction n generalizing i entries with
  | zero =>
      obtain rfl : [] = entries := Except.ok.inj h
      exact ⟨[], ⟨hlt, hend⟩, rfl⟩
  | succ n ih =>
      simp only [commitChrs, bind_ok, Except.ok.injEq] at h
      obtain ⟨first, hfirst, rest, hrest, rfl⟩ := h
      obtain ⟨chr, hchr, rfl⟩ := commitChr_ok s i first hfirst (hknown first (by simp))
      obtain ⟨chrs, hchrs, rfl⟩ := ih (i + 1) rest hrest
        (fun entry hmem => hknown entry (by simp [hmem])) (by omega)
        (by rw [← hend]; congr 2; omega)
      exact ⟨chr :: chrs, ⟨hchr, hchrs⟩, rfl⟩

theorem commitSvc_ok (env : CommitEnv) (s : State) (i : Nat) (entry : CommitSvc)
    (h : commitSvc env s i = .ok (some entry)) (hknown : entry.Known) :
    ∃ svc, ListsSvc s i svc ∧ entry = svc.entry := by
  simp only [commitSvc, bind_ok] at h
  obtain ⟨src, hsrc, h⟩ := h
  cases hpointer : (s.svcs i).characteristics with
  | none => simp [hpointer] at h
  | some c =>
      simp only [hpointer, bind_ok] at h
      obtain ⟨n, hcount, h⟩ := h
      by_cases halloc : env.callocChrs i = true
      · simp only [halloc, if_true, bind_ok, Except.ok.injEq, Option.some.injEq] at h
        obtain ⟨chrs, hchrs, rfl⟩ := h
        obtain ⟨uuid, huuid⟩ := hknown.1
        obtain rfl := copy_zero_known src uuid huuid
        obtain ⟨hlt, hend⟩ := countChrs_ok s _ c n hcount
        obtain ⟨listed, hlisted, rfl⟩ :=
          commitChrs_ok s n c chrs hchrs hknown.2 (by omega) hend
        exact ⟨⟨uuid, listed⟩, ⟨derefUuid_ok _ _ _ hsrc, c, hpointer, hlisted⟩, rfl⟩
      · simp [halloc] at h

-- There is an entry exactly when the characteristics could be allocated.
theorem commitSvc_alloc (env : CommitEnv) (s : State) (i : Nat) (entry : Option CommitSvc)
    (h : commitSvc env s i = .ok entry) : env.callocChrs i = entry.isSome := by
  simp only [commitSvc, bind_ok] at h
  obtain ⟨src, _, h⟩ := h
  cases hpointer : (s.svcs i).characteristics with
  | none => simp [hpointer] at h
  | some c =>
      simp only [hpointer, bind_ok] at h
      obtain ⟨n, _, h⟩ := h
      cases halloc : env.callocChrs i with
      | false =>
          simp only [halloc, Bool.false_eq_true, if_false] at h
          obtain rfl := Except.ok.inj h
          rfl
      | true =>
          simp only [halloc, if_true, bind_ok] at h
          obtain ⟨chrs, _, h⟩ := h
          obtain rfl := Except.ok.inj h
          rfl

-- One pass of the loop: it ends without memory, or it has an entry and goes on.
theorem commitLoop_succ (env : CommitEnv) (s : State) (n i : Nat)
    (result : Option (List CommitSvc)) : commitLoop env s (n + 1) i = .ok result ↔
      (commitSvc env s i = .ok none ∧ result = none) ∨
        ∃ first rest, commitSvc env s i = .ok (some first) ∧
          commitLoop env s n (i + 1) = .ok rest ∧ result = rest.map (first :: ·) := by
  constructor
  · intro h
    simp only [commitLoop, bind_ok] at h
    obtain ⟨first, hfirst, h⟩ := h
    cases first with
    | none => exact Or.inl ⟨hfirst, (Except.ok.inj h).symm⟩
    | some first =>
        simp only [bind_ok, Except.ok.injEq] at h
        obtain ⟨rest, hrest, hresult⟩ := h
        exact Or.inr ⟨first, rest, hfirst, hrest, hresult.symm⟩
  · rintro (⟨hnone, rfl⟩ | ⟨first, rest, hfirst, hrest, rfl⟩)
    · simp only [commitLoop, hnone, bind, Except.bind]
    · simp only [commitLoop, hfirst, hrest, bind, Except.bind]

theorem commitLoop_some (env : CommitEnv) (s : State) (n i : Nat) (entries : List CommitSvc)
    (h : commitLoop env s (n + 1) i = .ok (some entries)) :
    ∃ first rest, commitSvc env s i = .ok (some first) ∧
      commitLoop env s n (i + 1) = .ok (some rest) ∧ entries = first :: rest := by
  rcases (commitLoop_succ env s n i _).mp h with ⟨-, hnone⟩ | ⟨first, rest, hfirst, hrest, hsome⟩
  · cases hnone
  · obtain ⟨others, rfl, rfl⟩ := Option.map_eq_some_iff.mp hsome.symm
    exact ⟨first, others, hfirst, hrest, rfl⟩

-- A listing takes one allocation for each service.
theorem commitLoop_alloc (env : CommitEnv) (s : State) (n i : Nat) (entries : List CommitSvc)
    (h : commitLoop env s n i = .ok (some entries)) (si : Nat) (hlower : i ≤ si)
    (hupper : si < i + n) : env.callocChrs si = true := by
  induction n generalizing i entries with
  | zero => omega
  | succ n ih =>
      obtain ⟨first, rest, hfirst, hrest, -⟩ := commitLoop_some env s n i entries h
      rcases Nat.eq_or_lt_of_le hlower with rfl | hlater
      · exact commitSvc_alloc env s i _ hfirst
      · exact ih (i + 1) rest hrest hlater (by omega)

theorem commitLoop_ok (env : CommitEnv) (s : State) (n i : Nat) (entries : List CommitSvc)
    (h : commitLoop env s n i = .ok (some entries)) (hknown : ∀ entry ∈ entries, entry.Known) :
    ∃ svcs, ListsSvcs s i svcs ∧ svcs.length = n ∧ entries = svcs.map ListedSvc.entry := by
  induction n generalizing i entries with
  | zero =>
      obtain rfl : [] = entries := Option.some.inj (Except.ok.inj h)
      exact ⟨[], trivial, rfl, rfl⟩
  | succ n ih =>
      obtain ⟨first, rest, hfirst, hrest, rfl⟩ := commitLoop_some env s n i entries h
      obtain ⟨svc, hsvc, rfl⟩ := commitSvc_ok env s i first hfirst (hknown first (by simp))
      obtain ⟨svcs, hsvcs, rfl, rfl⟩ := ih (i + 1) rest hrest
        (fun entry hmem => hknown entry (by simp [hmem]))
      exact ⟨svc :: svcs, ⟨hsvc, hsvcs⟩, rfl, rfl⟩

end Blehostd.Gatts
