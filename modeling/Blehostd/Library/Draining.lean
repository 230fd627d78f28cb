import Mathlib.Logic.Basic
import Blehostd.Library.Transition

namespace Transition

variable {σ α : Type*} {step : σ → α → Option σ} {condition : σ → α → Prop} {effort : σ → Nat}

-- None of the steps that meet the condition is possible.
def Stuck (step : σ → α → Option σ) (condition : σ → α → Prop) (s : σ) : Prop :=
  ∀ a, condition s a → step s a = none

-- Every step takes one from what is left to do.
def Works (step : σ → α → Option σ) (condition : σ → α → Prop) (effort : σ → Nat) : Prop :=
  ∀ s a next, condition s a → step s a = some next → effort next + 1 = effort s

theorem run_works (h : Works step condition effort) (s last : σ) (actions : List α)
    (hm : Meets step condition s actions) (hr : run step s actions = some last) :
    actions.length + effort last = effort s := by
  induction actions generalizing s with
  | nil =>
      obtain rfl : s = last := Option.some.inj hr
      exact Nat.zero_add _
  | cons a rest ih =>
      obtain ⟨next, ha, hrest⟩ := run_cons hr
      have hlater := ih next (hm.2 next ha) hrest
      have hfirst := h s a next hm.1 ha
      rw [List.length_cons]
      omega

-- By induction on what is left to do.
theorem exists_run_stuck (h : Works step condition effort) (s : σ) :
    ∃ (actions : List α) (last : σ), Meets step condition s actions ∧
      run step s actions = some last ∧ Stuck step condition last := by
  have general : ∀ n s, effort s = n → ∃ (actions : List α) (last : σ),
      Meets step condition s actions ∧ run step s actions = some last ∧
      Stuck step condition last := by
    intro n
    induction n with
    | zero =>
        intro s hs
        refine ⟨[], s, trivial, rfl, ?_⟩
        intro a ha
        cases hstep : step s a with
        | none => rfl
        | some next =>
            have hless := h s a next ha hstep
            omega
    | succ n ih =>
        intro s hs
        by_cases hstuck : Stuck step condition s
        · exact ⟨[], s, trivial, rfl, hstuck⟩
        · obtain ⟨a, hpossible⟩ := not_forall.mp hstuck
          obtain ⟨ha, hpossible⟩ := Classical.not_imp.mp hpossible
          obtain ⟨next, hstep⟩ := Option.ne_none_iff_exists'.mp hpossible
          have hless := h s a next ha hstep
          obtain ⟨rest, last, hm, hr, hlast⟩ := ih next (by omega)
          refine ⟨a :: rest, last, meets_cons ha hstep hm, ?_, hlast⟩
          rw [run, hstep, Option.bind_some, hr]
  exact general _ s rfl

end Transition
