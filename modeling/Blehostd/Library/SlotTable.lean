import Mathlib.Logic.Function.Basic

-- Tables of records in numbered slots, filled from the front, in which lists
-- of records are stored one after another, each ended by a sentinel record.
namespace SlotTable

variable {α β : Type*}

-- The records from slot `i` up to the first one that `stop` accepts. There is
-- no result when the `left` slots of the table end before that.
def read (stop : α → Bool) (node : α → Option β) (t : Nat → α) : Nat → Nat → Option (List β)
  | 0, _ => none
  | left + 1, i =>
      if stop (t i) then some []
      else (node (t i)).bind fun first => (read stop node t left (i + 1)).map (first :: ·)

theorem read_nil_iff (stop : α → Bool) (node : α → Option β) (t : Nat → α) (left i : Nat) :
    read stop node t left i = some [] ↔ 0 < left ∧ stop (t i) = true := by
  cases left with
  | zero => simp [read]
  | succ left =>
      by_cases hstop : stop (t i) = true
      · simp [read, hstop]
      · cases hnode : node (t i) <;> simp [read, hstop, hnode]

theorem read_cons_iff (stop : α → Bool) (node : α → Option β) (t : Nat → α) (left i : Nat)
    (first : β) (rest : List β) (hstop : stop (t i) = false) :
    read stop node t (left + 1) i = some (first :: rest) ↔
      node (t i) = some first ∧ read stop node t left (i + 1) = some rest := by
  simp only [read, hstop, Bool.false_eq_true, ite_false, Option.bind_eq_some_iff,
    Option.map_eq_some_iff, List.cons.injEq]
  constructor
  · intro h
    obtain ⟨_, hnode, _, hrest, rfl, rfl⟩ := h
    exact ⟨hnode, hrest⟩
  · intro h
    exact ⟨first, h.1, rest, h.2, rfl, rfl⟩

-- Only slots from `lo` up to `hi` were written.
def SameOutside (lo hi : Nat) (t t' : Nat → α) : Prop :=
  ∀ i, i < lo ∨ hi ≤ i → t' i = t i

theorem SameOutside.refl (lo hi : Nat) (t : Nat → α) : SameOutside lo hi t t :=
  fun _ _ => rfl

theorem SameOutside.trans {lo mid hi : Nat} {t t' t'' : Nat → α} (h : SameOutside lo mid t t')
    (h' : SameOutside mid hi t' t'') (hlo : lo ≤ mid) (hhi : mid ≤ hi) :
    SameOutside lo hi t t'' := by
  intro i hi
  have hfirst : t' i = t i := h i (by omega)
  have hsecond : t'' i = t' i := h' i (by omega)
  exact hsecond.trans hfirst

theorem SameOutside.eq {n : Nat} {t t' : Nat → α} (h : SameOutside n n t t') : t' = t := by
  funext i
  exact h i (by omega)

theorem SameOutside.update (t : Nat → α) (i : Nat) (record : α) :
    SameOutside i (i + 1) t (Function.update t i record) := by
  intro j hj
  have hne : j ≠ i := by omega
  exact Function.update_of_ne hne record t

-- Records that hold different numbers below `n`, or no number.
structure Allotted (n : Nat) (number : β → Option Nat) : Prop where
  below : ∀ a k, number a = some k → k < n
  apart : ∀ a b k, number a = some k → number b = some k → a = b

-- The next number goes to one record, which gives up the number it had.
theorem Allotted.put {n : Nat} {number number' : β → Option Nat} (h : Allotted n number) (a : β)
    (hput : number' a = some n) (hother : ∀ b, b ≠ a → number' b = number b) :
    Allotted (n + 1) number' where
  below b k hb := by
    by_cases hba : b = a
    · obtain rfl : n = k := Option.some.inj (hput.symm.trans (hba ▸ hb))
      exact Nat.lt_succ_self n
    · rw [hother b hba] at hb
      exact Nat.lt_succ_of_lt (h.below b k hb)
  apart b c k hb hc := by
    by_cases hba : b = a
    · by_cases hca : c = a
      · rw [hba, hca]
      · obtain rfl : n = k := Option.some.inj (hput.symm.trans (hba ▸ hb))
        rw [hother c hca] at hc
        exact absurd (h.below c n hc) (Nat.lt_irrefl n)
    · by_cases hca : c = a
      · obtain rfl : n = k := Option.some.inj (hput.symm.trans (hca ▸ hc))
        rw [hother b hba] at hb
        exact absurd (h.below b n hb) (Nat.lt_irrefl n)
      · rw [hother b hba] at hb
        rw [hother c hca] at hc
        exact h.apart b c k hb hc

end SlotTable
