import Mathlib.Logic.Function.Basic
import Mathlib.Data.List.Perm.Basic
import Mathlib.Data.List.Nodup

-- The blocks that are allocated, each with its content.
abbrev Heap (β α : Type) : Type := β → Option α

namespace Heap

variable {β α : Type} [DecidableEq β]

def empty : Heap β α := fun _ => none

-- There is no next heap after an access to a block that is not allocated, or a malloc
-- that gives out a block twice.
def malloc (heap : Heap β α) (b : β) (a : α) : Option (Heap β α) :=
  match heap b with
  | some _ => none
  | none => some (Function.update heap b (some a))

def load (heap : Heap β α) (b : β) : Option α := heap b

def free (heap : Heap β α) (b : β) : Option (Heap β α) :=
  match heap b with
  | some _ => some (Function.update heap b none)
  | none => none

-- The heap consists of these cells, each of which has one owner.
structure Owned (heap : Heap β α) (cells : List (β × α)) : Prop where
  once : (cells.map Prod.fst).Nodup
  content : ∀ b a, heap b = some a ↔ (b, a) ∈ cells

omit [DecidableEq β] in
theorem owned_empty : Owned (empty : Heap β α) [] where
  once := List.nodup_nil
  content := by
    intro b a
    simp [empty]

omit [DecidableEq β] in
theorem Owned.perm {heap : Heap β α} {cells other : List (β × α)} (h : Owned heap cells)
    (hperm : cells.Perm other) : Owned heap other where
  once := (hperm.map Prod.fst).nodup_iff.mp h.once
  content := by
    intro b a
    rw [h.content, hperm.mem_iff]

omit [DecidableEq β] in
theorem Owned.load {heap : Heap β α} {cells : List (β × α)} (h : Owned heap cells) (b : β) (a : α)
    (hmem : (b, a) ∈ cells) : heap.load b = some a :=
  (h.content b a).mpr hmem

omit [DecidableEq β] in
theorem Owned.fresh {heap : Heap β α} {cells : List (β × α)} (h : Owned heap cells) (b : β)
    (hb : heap b = none) : b ∉ cells.map Prod.fst := by
  intro hmem
  obtain ⟨cell, hcell, rfl⟩ := List.mem_map.mp hmem
  rw [(h.content cell.1 cell.2).mpr hcell] at hb
  cases hb

theorem Owned.malloc {heap : Heap β α} {cells : List (β × α)} (h : Owned heap cells) (b : β)
    (a : α) (hb : heap b = none) :
    ∃ next, heap.malloc b a = some next ∧ Owned next ((b, a) :: cells) := by
  refine ⟨Function.update heap b (some a), by simp only [Heap.malloc, hb], ?_, ?_⟩
  · rw [List.map_cons, List.nodup_cons]
    exact ⟨h.fresh b hb, h.once⟩
  · intro other value
    by_cases hother : other = b
    · subst hother
      have hnone : (other, value) ∉ cells := by
        intro hmem
        exact h.fresh other hb (List.mem_map_of_mem hmem)
      simp [hnone, eq_comm]
    · rw [Function.update_of_ne hother, h.content, List.mem_cons]
      simp [hother]

theorem Owned.free {heap : Heap β α} {cells : List (β × α)} (b : β) (a : α)
    (h : Owned heap ((b, a) :: cells)) : ∃ next, heap.free b = some next ∧ Owned next cells := by
  have hb : heap b = some a := (h.content b a).mpr List.mem_cons_self
  obtain ⟨hnot, honce⟩ := List.nodup_cons.mp h.once
  refine ⟨Function.update heap b none, by simp only [Heap.free, hb], honce, ?_⟩
  intro other value
  by_cases hother : other = b
  · subst hother
    have hnone : (other, value) ∉ cells := fun hmem => hnot (List.mem_map.mpr ⟨_, hmem, rfl⟩)
    simp [hnone]
  · rw [Function.update_of_ne hother, h.content, List.mem_cons]
    simp [hother]

end Heap
