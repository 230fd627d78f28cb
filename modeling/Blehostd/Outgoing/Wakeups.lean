import Blehostd.Library.Simulation
import Blehostd.Outgoing.Theorems

namespace Blehostd.Outgoing

-- The handler goes on to the next message.
def Active : SendPhase → Prop
  | .looping => True
  | .sending _ => True
  | _ => False

-- A message that the socket has refused and the handler has not put back yet.
def Refused : SendPhase → Prop
  | .refused _ => True
  | _ => False

-- The socket had no room, and has not reported any since.
def Blocked (acts : List SendAct) : Prop :=
  ∃ before t after, acts = before ++ SendAct.sendto t false :: after ∧ SendAct.writable ∉ after

-- Something will come to send: the event in a queue, a handler that goes on, or the socket
-- when it has room again.
def Awaited (acts : List SendAct) (s : Outgoing) : Prop :=
  s.posted ≠ none ∨ Blocked acts ∨ ∃ t, Active (s.phase t)

-- The socket reports room only after a refused message is back on the queue.
def Settled (s : Outgoing) : SendAct → Prop
  | .writable => ∀ t, ¬Refused (s.phase t)
  | _ => True

-- A refused message is in hand only while the socket is blocked, and what is on the queue is
-- not forgotten.
structure Remembered (acts : List SendAct) (s : Outgoing) : Prop where
  refused : ∀ t, Refused (s.phase t) → Blocked acts
  awaited : s.rspMq ≠ [] → Awaited acts s

theorem Blocked.later {acts : List SendAct} (h : Blocked acts) (act : SendAct)
    (hact : act ≠ .writable) : Blocked (acts ++ [act]) := by
  obtain ⟨before, t, after, rfl, hafter⟩ := h
  refine ⟨before, t, after ++ [act], by simp, ?_⟩
  simp [hafter, Ne.symm hact]

theorem awaited_posted (acts : List SendAct) (s : Outgoing) (t : Task) :
    Awaited acts (s.post t) := by
  left
  unfold post
  cases hposted : s.posted with
  | none => simp
  | some u => simp [hposted]

theorem awaited_active (acts : List SendAct) (s : Outgoing) (t : Task) (phase : SendPhase)
    (hphase : Active phase) : Awaited acts (s.setPhase t phase) := by
  refine Or.inr (Or.inr ⟨t, ?_⟩)
  rw [setPhase_same]
  exact hphase

theorem Awaited.later {acts : List SendAct} {s : Outgoing} (h : Awaited acts s) (act : SendAct)
    (hact : act ≠ .writable) : Awaited (acts ++ [act]) s := by
  rcases h with hposted | hblocked | hactive
  · exact Or.inl hposted
  · exact Or.inr (Or.inl (hblocked.later act hact))
  · exact Or.inr (Or.inr hactive)

-- A step that refuses nothing, and is no report of the socket.
theorem Remembered.kept {acts : List SendAct} {s : Outgoing} (h : Remembered acts s)
    (act : SendAct) (next : Outgoing) (hact : act ≠ .writable)
    (hphase : ∀ t, Refused (next.phase t) → Refused (s.phase t))
    (hawaited : next.rspMq ≠ [] → Awaited (acts ++ [act]) next) :
    Remembered (acts ++ [act]) next where
  refused t hrefused := (h.refused t (hphase t hrefused)).later act hact
  awaited := hawaited

-- A task that goes to a phase without a refused message.
theorem refused_setPhase (s : Outgoing) (t : Task) (phase : SendPhase) (hphase : ¬Refused phase)
    (u : Task) (hrefused : Refused ((s.setPhase t phase).phase u)) : Refused (s.phase u) := by
  rcases eq_or_other u t with rfl | rfl
  · rw [setPhase_same] at hrefused
    exact absurd hrefused hphase
  · rwa [setPhase_other] at hrefused

-- The report of the socket posts the event, and finds no refused message.
theorem remembered_step (acts : List SendAct) (s : Outgoing) (act : SendAct) (next : Outgoing)
    (h : Remembered acts s) (hsettled : s.Settled act) (hstep : s.step act = some next) :
    Remembered (acts ++ [act]) next := by
  cases act with
  | enqueue json =>
      by_cases hlong : BLEHOSTD_MAX_MSG_SZ < json.length
      · obtain rfl : s = next := by simpa [step, enqueueRsp, hlong, SYS_EINVAL] using hstep
        refine h.kept _ s (by simp) (fun _ hrefused => hrefused) ?_
        intro hqueue
        exact (h.awaited hqueue).later _ (by simp)
      · simp only [step, enqueueRsp, hlong, if_false, if_true, Option.some.injEq] at hstep
        obtain rfl := hstep
        refine h.kept _ _ (by simp) ?_ fun _ => awaited_posted _ _ _
        intro t hrefused
        obtain ⟨posted, hpost⟩ := post_eq
          { s with rspMq := s.rspMq ++ [rspFrame json], put := s.put ++ [rspFrame json] } .blehostd
        rwa [hpost] at hrefused
  | writable =>
      obtain rfl : s.post .main = next := Option.some.inj hstep
      refine ⟨?_, fun _ => awaited_posted _ _ _⟩
      intro t hrefused
      obtain ⟨posted, hpost⟩ := post_eq s .main
      rw [hpost] at hrefused
      exact absurd hrefused (hsettled t)
  | start t =>
      obtain ⟨-, hnext⟩ := Option.ite_none_right_eq_some.mp hstep
      obtain rfl := Option.some.inj hnext
      exact h.kept _ _ (by simp) (refused_setPhase { s with posted := none } t _ id)
        fun _ => awaited_active _ _ t _ trivial
  | get t =>
      obtain ⟨hlooping, hnext⟩ := Option.ite_none_right_eq_some.mp hstep
      cases hqueue : s.rspMq with
      | nil =>
          simp only [hqueue, Option.some.injEq] at hnext
          obtain rfl := hnext
          exact h.kept _ _ (by simp) (refused_setPhase s t _ id) fun hmq => absurd hqueue hmq
      | cons om rest =>
          simp only [hqueue, Option.some.injEq] at hnext
          obtain rfl := hnext
          exact h.kept _ _ (by simp) (refused_setPhase { s with rspMq := rest } t _ id)
            fun _ => awaited_active _ _ t _ trivial
  | sendto t room =>
      cases hphase : s.phase t with
      | sending om =>
          simp only [step, hphase] at hstep
          cases room with
          | true =>
              simp only [if_true, Option.some.injEq] at hstep
              obtain rfl := hstep
              exact h.kept _ _ (by simp)
                (refused_setPhase { s with taken := s.taken ++ [om] } t _ id)
                fun _ => awaited_active _ _ t _ trivial
          | false =>
              have hblocked : Blocked (acts ++ [.sendto t false]) :=
                ⟨acts, t, [], rfl, List.not_mem_nil⟩
              exact ⟨fun _ _ => hblocked, fun _ => Or.inr (Or.inl hblocked)⟩
      | _ => simp [step, hphase] at hstep
  | reinsert t =>
      cases hphase : s.phase t with
      | refused om =>
          simp only [step, hphase, Option.some.injEq] at hstep
          obtain rfl := hstep
          have hblocked := h.refused t (by rw [hphase]; trivial)
          exact h.kept _ _ (by simp) (refused_setPhase { s with rspMq := om :: s.rspMq } t _ id)
            fun _ => Or.inr (Or.inl (hblocked.later _ (by simp)))
      | _ => simp [step, hphase] at hstep

theorem run_remembered (acts : List SendAct) (s : Outgoing)
    (hsettled : Transition.Meets step Settled initial acts) (hrun : initial.run acts = some s) :
    Remembered acts s := by
  have hinitial : Remembered [] initial :=
    ⟨fun _ hrefused => absurd hrefused id, fun hqueue => absurd rfl hqueue⟩
  exact Transition.run_history hinitial remembered_step hsettled hrun

-- A message on the queue is never left there without a reason to come back to it.
theorem run_awaited (acts : List SendAct) (s : Outgoing)
    (hsettled : Transition.Meets step Settled initial acts) (hrun : initial.run acts = some s)
    (hqueue : s.rspMq ≠ []) :
    s.posted ≠ none ∨ Blocked acts ∨ ∃ t, Active (s.phase t) :=
  (run_remembered acts s hsettled hrun).awaited hqueue

-- The socket is full, reports room when the message is back on the queue, and is full again.
def refusedTwice : List SendAct :=
  [.enqueue [1], .start .blehostd, .get .blehostd, .sendto .blehostd false, .reinsert .blehostd,
    .writable, .start .main, .get .main, .sendto .main false, .reinsert .main]

theorem refused_awaited : ∃ s : Outgoing, initial.run refusedTwice = some s ∧
    s.rspMq = [rspFrame [1]] ∧
    (s.posted ≠ none ∨ Blocked refusedTwice ∨ ∃ t, Active (s.phase t)) := by
  refine ⟨_, rfl, ?_, run_awaited refusedTwice _ ?_ rfl (List.cons_ne_nil _ _)⟩
  · rfl
  · -- Only the report of the socket has to find no refused message.
    repeat apply Transition.meets_cons trivial rfl
    apply Transition.meets_cons (fun t => by cases t <;> exact id) rfl
    repeat apply Transition.meets_cons trivial rfl
    exact trivial

-- The socket reports room while the refused message is still in the hand of the first
-- task. The second task finds nothing to send, and then the message goes back on a queue
-- that nobody comes back to.
example : ∃ s : Outgoing,
    initial.run [.enqueue [1], .start .blehostd, .get .blehostd, .sendto .blehostd false,
      .writable, .start .main, .get .main, .reinsert .blehostd] = some s ∧
    s.rspMq = [rspFrame [1]] ∧ s.posted = none ∧ ∀ t, ¬Active (s.phase t) := by
  refine ⟨_, rfl, rfl, rfl, ?_⟩
  intro t
  cases t <;> exact id

end Blehostd.Outgoing
