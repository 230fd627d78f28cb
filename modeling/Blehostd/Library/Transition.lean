import Mathlib.Data.Option.Basic

-- Runs of a partial step function: `none` means that the action is not enabled.
namespace Transition

variable {σ α : Type*} (step : σ → α → Option σ)

def run : σ → List α → Option σ
  | s, [] => some s
  | s, a :: rest => (step s a).bind fun next => run next rest

-- Every action of the run meets a condition on the state in which it starts.
def Meets (condition : σ → α → Prop) : σ → List α → Prop
  | _, [] => True
  | s, a :: rest => condition s a ∧ ∀ next, step s a = some next → Meets condition next rest

variable {step}

theorem run_cons {s last : σ} {a : α} {rest : List α} (h : run step s (a :: rest) = some last) :
    ∃ next, step s a = some next ∧ run step next rest = some last :=
  Option.bind_eq_some_iff.mp h

theorem run_append {s last : σ} {first rest : List α} (h : run step s (first ++ rest) = some last) :
    ∃ next, run step s first = some next ∧ run step next rest = some last := by
  induction first generalizing s with
  | nil => exact ⟨s, rfl, h⟩
  | cons a first ih =>
      obtain ⟨mid, hmid, hlater⟩ := run_cons h
      obtain ⟨next, hnext, hrest⟩ := ih hlater
      refine ⟨next, ?_, hrest⟩
      rw [run, hmid, Option.bind_some, hnext]

theorem meets_cons {condition : σ → α → Prop} {s next : σ} {a : α} {rest : List α}
    (hcondition : condition s a) (h : step s a = some next)
    (hrest : Meets step condition next rest) : Meets step condition s (a :: rest) := by
  refine ⟨hcondition, ?_⟩
  intro other hother
  obtain rfl : next = other := Option.some.inj (h.symm.trans hother)
  exact hrest

-- Two conditions that agree on the actions of a run.
theorem meets_congr {first second : σ → α → Prop} (s : σ) (actions : List α)
    (h : ∀ s, ∀ a ∈ actions, first s a ↔ second s a) :
    Meets step first s actions ↔ Meets step second s actions := by
  induction actions generalizing s with
  | nil => exact Iff.rfl
  | cons a rest ih =>
      have hrest : ∀ s, ∀ a ∈ rest, first s a ↔ second s a := fun s a ha => h s a (by simp [ha])
      simp only [Meets, h s a (by simp), ih _ hrest]

theorem meets_of_forall {condition : σ → α → Prop} (h : ∀ s a, condition s a) (s : σ)
    (actions : List α) : Meets step condition s actions := by
  induction actions generalizing s with
  | nil => trivial
  | cons a rest ih => exact ⟨h s a, fun next _ => ih next⟩

-- An invariant of the steps that meet the condition holds at the end of every
-- run whose actions all meet it.
theorem run_invariant {I : σ → Prop} {condition : σ → α → Prop}
    (hstep : ∀ s a next, I s → condition s a → step s a = some next → I next)
    (s last : σ) (actions : List α) (hs : I s) (hm : Meets step condition s actions)
    (hr : run step s actions = some last) : I last := by
  induction actions generalizing s with
  | nil =>
      obtain rfl : s = last := Option.some.inj hr
      exact hs
  | cons a rest ih =>
      obtain ⟨next, ha, hrest⟩ := run_cons hr
      exact ih next (hstep s a next hs hm.1 ha) (hm.2 next ha) hrest

-- An invariant of all steps holds at the end of every run.
theorem run_keeps {I : σ → Prop} (hstep : ∀ s a next, I s → step s a = some next → I next)
    (s last : σ) (actions : List α) (hs : I s) (hr : run step s actions = some last) : I last :=
  run_invariant (fun s a next h _ => hstep s a next h) s last actions hs
    (meets_of_forall (fun _ _ => trivial) s actions) hr

-- The same for a step function that says why it stops.
theorem foldlM_keeps {ε : Type*} {f : σ → α → Except ε σ} {I : σ → Prop}
    (hstep : ∀ s a next, I s → f s a = .ok next → I next) (s last : σ) (actions : List α)
    (hs : I s) (hr : actions.foldlM f s = .ok last) : I last := by
  induction actions generalizing s with
  | nil =>
      obtain rfl : s = last := Except.ok.inj hr
      exact hs
  | cons a rest ih =>
      rw [List.foldlM_cons] at hr
      cases ha : f s a with
      | error fault =>
          rw [ha] at hr
          cases hr
      | ok next =>
          rw [ha] at hr
          exact ih next (hstep s a next hs ha) hr

end Transition
