import Mathlib.Data.List.Forall2
import Blehostd.Library.Transition

namespace Transition

variable {σ τ α : Type*} {step : σ → α → Option σ} {spec : τ → α → Option τ}

-- A machine and the one that says what it is for, on the same actions: from related states
-- both take the step and stay related, or neither takes it.
def Together (step : σ → α → Option σ) (spec : τ → α → Option τ) (R : σ → τ → Prop)
    (s : σ) (t : τ) (a : α) : Prop :=
  (step s a = none ∧ spec t a = none) ∨
  ∃ next last, step s a = some next ∧ spec t a = some last ∧ R next last

theorem run_together {condition : σ → α → Prop} {R : σ → τ → Prop}
    (h : ∀ s t a, R s t → condition s a → Together step spec R s t a) (s : σ) (t : τ)
    (actions : List α) (hR : R s t) (hm : Meets step condition s actions) :
    (run step s actions = none ∧ run spec t actions = none) ∨
    ∃ last other, run step s actions = some last ∧ run spec t actions = some other ∧
      R last other := by
  induction actions generalizing s t with
  | nil => exact Or.inr ⟨s, t, rfl, rfl, hR⟩
  | cons a rest ih =>
      rcases h s t a hR hm.1 with ⟨hs, ht⟩ | ⟨next, mid, hs, ht, hnext⟩
      · left
        exact ⟨by rw [run, hs, Option.bind_none], by rw [run, ht, Option.bind_none]⟩
      · rw [run, run, hs, ht, Option.bind_some, Option.bind_some]
        exact ih next mid hnext (hm.2 next hs)

theorem run_snoc {s mid last : σ} {actions : List α} {a : α} (h : run step s actions = some mid)
    (ha : step mid a = some last) : run step s (actions ++ [a]) = some last := by
  induction actions generalizing s with
  | nil =>
      obtain rfl : s = mid := Option.some.inj h
      rw [List.nil_append, run, ha]
      rfl
  | cons first rest ih =>
      obtain ⟨next, hfirst, hrest⟩ := run_cons h
      rw [List.cons_append, run, hfirst, Option.bind_some]
      exact ih hrest

-- Two lists of actions that do the same from any state.
theorem run_congr {actions others : List α}
    (h : List.Forall₂ (fun a b => ∀ s, step s a = step s b) actions others) (s : σ) :
    run step s actions = run step s others := by
  induction h generalizing s with
  | nil => rfl
  | cons hfirst _ ih =>
      rw [run, run, hfirst s]
      exact Option.bind_congr fun next _ => ih next

-- The actions of a run that gets to its end were all possible.
theorem meets_of_run {condition : σ → α → Prop}
    (h : ∀ s a, (step s a).isSome = true → condition s a) (s last : σ) (actions : List α)
    (hrun : run step s actions = some last) : Meets step condition s actions := by
  induction actions generalizing s with
  | nil => trivial
  | cons a rest ih =>
      obtain ⟨next, ha, hrest⟩ := run_cons hrun
      exact meets_cons (h s a (by rw [ha]; rfl)) ha (ih next hrest)

-- What holds of the actions taken so far and of the state that they lead to.
theorem run_history {I : List α → σ → Prop} {condition : σ → α → Prop} {s last : σ}
    {actions : List α} (hs : I [] s)
    (hstep : ∀ past s a next, I past s → condition s a → step s a = some next →
      I (past ++ [a]) next)
    (hm : Meets step condition s actions) (hrun : run step s actions = some last) :
    I actions last := by
  have general : ∀ (rest past : List α) (s : σ), I past s → Meets step condition s rest →
      run step s rest = some last → I (past ++ rest) last := by
    intro rest
    induction rest with
    | nil =>
        intro past s hpast _ hr
        obtain rfl : s = last := Option.some.inj hr
        rwa [List.append_nil]
    | cons a rest ih =>
        intro past s hpast hm hr
        obtain ⟨next, ha, hrest⟩ := run_cons hr
        have hlater := ih (past ++ [a]) next (hstep past s a next hpast hm.1 ha) (hm.2 next ha) hrest
        rwa [List.append_assoc] at hlater
  exact general actions [] s hs hm hrun

end Transition
