import Mathlib.Data.Finset.Basic
import Mathlib.Data.Finset.Lattice.Lemmas
import Mathlib.Data.Finset.SDiff
import Mathlib.Data.List.Nodup

-- A pointer that is passed to free. Memory that nothing was stored in holds junk.
inductive Ptr (β : Type) where
  | null
  | block (b : β)
  | junk
deriving DecidableEq, Repr

inductive MemOp (β : Type) where
  | malloc (b : β)
  | free (ptr : Ptr β)
deriving DecidableEq, Repr

namespace Ledger

variable {β : Type} [DecidableEq β]

-- The blocks that are held. There is no next step after a free of anything else, or a
-- malloc that gives a block out twice.
def step (held : Finset β) : MemOp β → Option (Finset β)
  | .malloc b => if b ∈ held then none else some (insert b held)
  | .free .null => some held
  | .free (.block b) => if b ∈ held then some (held.erase b) else none
  | .free .junk => none

def run (held : Finset β) : List (MemOp β) → Option (Finset β)
  | [] => some held
  | op :: ops => (step held op).bind fun held => run held ops

-- Every block that was obtained has been released, once, and nothing but initialised
-- pointers was passed to free.
def Balanced (ops : List (MemOp β)) : Prop :=
  run ∅ ops = some ∅

def blockOf : Ptr β → Option β
  | .block b => some b
  | _ => none

omit [DecidableEq β] in
theorem blockOf_some (ptr : Ptr β) (b : β) : blockOf ptr = some b ↔ ptr = .block b := by
  cases ptr <;> simp [blockOf]

theorem run_append (held : Finset β) (ops more : List (MemOp β)) :
    run held (ops ++ more) = (run held ops).bind fun held => run held more := by
  induction ops generalizing held with
  | nil => rfl
  | cons op ops ih =>
      simp only [List.cons_append, run]
      cases step held op with
      | none => rfl
      | some next => exact ih next

theorem run_mallocs (held : Finset β) (blocks : List β) (hnodup : blocks.Nodup)
    (hfresh : ∀ b ∈ blocks, b ∉ held) :
    run held (blocks.map .malloc) = some (held ∪ blocks.toFinset) := by
  induction blocks generalizing held with
  | nil => simp [run]
  | cons b rest ih =>
      obtain ⟨hnot, hrest⟩ := List.nodup_cons.mp hnodup
      have hb := hfresh b List.mem_cons_self
      have hnext : ∀ other ∈ rest, other ∉ insert b held := by
        intro other hother
        rw [Finset.mem_insert, not_or]
        exact ⟨fun h => hnot (h ▸ hother), hfresh other (List.mem_cons_of_mem b hother)⟩
      simp only [List.map_cons, run, step, if_neg hb, Option.bind_some]
      rw [ih (insert b held) hrest hnext, List.toFinset_cons, Finset.insert_union,
        Finset.union_insert]

theorem run_frees (held : Finset β) (ptrs : List (Ptr β)) (hset : ∀ ptr ∈ ptrs, ptr ≠ .junk)
    (honce : (ptrs.filterMap blockOf).Nodup) (hheld : ∀ b ∈ ptrs.filterMap blockOf, b ∈ held) :
    run held (ptrs.map .free) = some (held \ (ptrs.filterMap blockOf).toFinset) := by
  induction ptrs generalizing held with
  | nil => simp [run]
  | cons ptr rest ih =>
      obtain ⟨hptr, hrest⟩ := List.forall_mem_cons.mp hset
      cases ptr with
      | junk => exact absurd rfl hptr
      | null => exact ih held hrest honce hheld
      | block b =>
          have hcons : (Ptr.block b :: rest).filterMap blockOf = b :: rest.filterMap blockOf := rfl
          rw [hcons] at honce hheld ⊢
          obtain ⟨hnot, honce⟩ := List.nodup_cons.mp honce
          obtain ⟨hb, hheld⟩ := List.forall_mem_cons.mp hheld
          have hkept : ∀ other ∈ rest.filterMap blockOf, other ∈ held.erase b := by
            intro other hother
            exact Finset.mem_erase.mpr ⟨fun h => hnot (h ▸ hother), hheld other hother⟩
          simp only [List.map_cons, run, step, if_pos hb, Option.bind_some]
          rw [ih (held.erase b) hrest honce hkept, List.toFinset_cons, Finset.sdiff_insert,
            Finset.erase_sdiff_comm]

-- The pointers that are freed are set, and they point to blocks that have been obtained,
-- no two of them to the same one.
structure Releases (blocks : List β) (ptrs : List (Ptr β)) : Prop where
  obtained : blocks.Nodup
  initialised : ∀ ptr ∈ ptrs, ptr ≠ .junk
  once : (ptrs.filterMap blockOf).Nodup
  held : ∀ b ∈ ptrs.filterMap blockOf, b ∈ blocks

omit [DecidableEq β] in
theorem releases_nulls (ptrs : List (Ptr β)) (hnull : ∀ ptr ∈ ptrs, ptr = .null) :
    Releases ([] : List β) ptrs := by
  have hnone : ptrs.filterMap blockOf = [] := by
    rw [List.filterMap_eq_nil_iff]
    intro ptr hptr
    rw [hnull ptr hptr]
    rfl
  refine ⟨List.nodup_nil, ?_, ?_, ?_⟩
  · intro ptr hptr
    simp [hnull ptr hptr]
  · rw [hnone]
    exact List.nodup_nil
  · rw [hnone]
    intro b hb
    exact absurd hb List.not_mem_nil

omit [DecidableEq β] in
theorem releases_block (b : β) : Releases [b] [.block b] :=
  ⟨List.nodup_singleton b, by simp, List.nodup_singleton b, by simp [blockOf]⟩

omit [DecidableEq β] in
theorem Releases.none {blocks : List β} {ptrs : List (Ptr β)} (h : Releases blocks ptrs) :
    Releases blocks [] :=
  ⟨h.obtained, by simp, List.nodup_nil, by simp⟩

omit [DecidableEq β] in
theorem Releases.append {blocks blocks' : List β} {ptrs ptrs' : List (Ptr β)}
    (h : Releases blocks ptrs) (h' : Releases blocks' ptrs')
    (hdisjoint : blocks.Disjoint blocks') : Releases (blocks ++ blocks') (ptrs ++ ptrs') where
  obtained := List.Nodup.append h.obtained h'.obtained hdisjoint
  initialised := by
    intro ptr hptr
    rcases List.mem_append.mp hptr with hfirst | hlater
    · exact h.initialised ptr hfirst
    · exact h'.initialised ptr hlater
  once := by
    rw [List.filterMap_append]
    refine List.Nodup.append h.once h'.once ?_
    intro b hb hb'
    exact hdisjoint (h.held b hb) (h'.held b hb')
  held := by
    intro b hb
    rw [List.filterMap_append, List.mem_append] at hb
    rcases hb with hfirst | hlater
    · exact List.mem_append_left _ (h.held b hfirst)
    · exact List.mem_append_right _ (h'.held b hlater)

omit [DecidableEq β] in
theorem Releases.perm {blocks blocks' : List β} {ptrs ptrs' : List (Ptr β)}
    (h : Releases blocks ptrs) (hblocks : blocks.Perm blocks') (hptrs : ptrs.Perm ptrs') :
    Releases blocks' ptrs' where
  obtained := hblocks.nodup_iff.mp h.obtained
  initialised := by
    intro ptr hptr
    exact h.initialised ptr (hptrs.mem_iff.mpr hptr)
  once := (hptrs.filterMap blockOf).nodup_iff.mp h.once
  held := by
    intro b hb
    exact hblocks.mem_iff.mp (h.held b ((hptrs.filterMap blockOf).mem_iff.mpr hb))

-- What is still held at the end was not freed.
theorem Releases.run {blocks : List β} {ptrs : List (Ptr β)} (h : Releases blocks ptrs) :
    run ∅ (blocks.map .malloc ++ ptrs.map .free) =
      some (blocks.toFinset \ (ptrs.filterMap blockOf).toFinset) := by
  have hobtained := run_mallocs ∅ blocks h.obtained fun b _ => Finset.notMem_empty b
  rw [Finset.empty_union] at hobtained
  rw [run_append, hobtained, Option.bind_some]
  exact run_frees _ ptrs h.initialised h.once fun b hb => List.mem_toFinset.mpr (h.held b hb)

theorem Releases.balanced_iff {blocks : List β} {ptrs : List (Ptr β)} (h : Releases blocks ptrs) :
    Balanced (blocks.map .malloc ++ ptrs.map .free) ↔ ∀ b ∈ blocks, .block b ∈ ptrs := by
  unfold Balanced
  rw [h.run, Option.some.injEq, Finset.sdiff_eq_empty_iff_subset]
  constructor
  · intro hsub b hb
    have hfreed := List.mem_toFinset.mp (hsub (List.mem_toFinset.mpr hb))
    obtain ⟨ptr, hptr, hblock⟩ := List.mem_filterMap.mp hfreed
    rwa [(blockOf_some ptr b).mp hblock] at hptr
  · intro hall b hb
    have hfreed := hall b (List.mem_toFinset.mp hb)
    exact List.mem_toFinset.mpr (List.mem_filterMap.mpr ⟨.block b, hfreed, rfl⟩)

-- A pointer that was never set.
theorem run_junk (held : Finset β) (ops : List (MemOp β)) (h : .free .junk ∈ ops) :
    run held ops = none := by
  induction ops generalizing held with
  | nil => exact absurd h List.not_mem_nil
  | cons op ops ih =>
      rcases List.mem_cons.mp h with rfl | hlater
      · rfl
      · rw [run]
        cases step held op with
        | none => rfl
        | some next => exact ih next hlater

-- Every block is released, in any order.
theorem balanced_perm (blocks others : List β) (hnodup : blocks.Nodup)
    (hperm : others.Perm blocks) :
    Balanced (blocks.map .malloc ++ (others.map Ptr.block).map .free) := by
  have hblocks : (others.map Ptr.block).filterMap blockOf = others := by
    rw [List.filterMap_map]
    exact List.filterMap_some
  have hreleases : Releases blocks (others.map Ptr.block) := by
    refine ⟨hnodup, by simp, ?_, ?_⟩
    · rw [hblocks]
      exact hperm.nodup_iff.mpr hnodup
    · rw [hblocks]
      exact fun b => hperm.mem_iff.mp
  rw [hreleases.balanced_iff]
  intro b hb
  exact List.mem_map_of_mem (hperm.mem_iff.mpr hb)

end Ledger
