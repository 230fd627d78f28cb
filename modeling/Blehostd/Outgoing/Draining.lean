import Blehostd.Library.Draining
import Blehostd.Outgoing.Wakeups

namespace Blehostd.Outgoing

-- The steps of the two tasks while the socket takes what it is given.
def Sends : SendAct → Prop
  | .start _ => True
  | .get _ => True
  | .sendto _ room => room = true
  | .reinsert _ => True
  | _ => False

def phaseEffort : SendPhase → Nat
  | .idle => 0
  | .looping => 1
  | .sending _ => 2
  | .refused _ => 3

-- The steps that the tasks have to take: two for a message on the queue, and for an event one
-- to begin and one to find the queue empty.
def effort (s : Outgoing) : Nat :=
  2 * s.rspMq.length + 2 * s.posted.toList.length + phaseEffort (s.phase .blehostd) +
    phaseEffort (s.phase .main)

theorem effort_setPhase (s : Outgoing) (t : Task) (phase : SendPhase) :
    (s.setPhase t phase).effort + phaseEffort (s.phase t) =
      s.effort + phaseEffort phase := by
  cases t <;> simp [effort, setPhase, Function.update] <;> omega

-- One case for each step.
theorem sends_works : Transition.Works step (fun _ act => Sends act) effort := by
  intro s act next hact hstep
  cases act with
  | enqueue json => exact absurd hact id
  | writable => exact absurd hact id
  | start t =>
      obtain ⟨⟨hposted, hidle⟩, hnext⟩ := Option.ite_none_right_eq_some.mp hstep
      obtain rfl := Option.some.inj hnext
      have hphase := effort_setPhase { s with posted := none } t .looping
      have hbegun : ({ s with posted := none } : Outgoing).effort + 2 = s.effort := by
        simp only [effort, hposted, Option.toList_some, Option.toList_none, List.length_cons,
          List.length_nil]
        omega
      simp only [hidle, phaseEffort] at hphase
      omega
  | get t =>
      obtain ⟨hlooping, hnext⟩ := Option.ite_none_right_eq_some.mp hstep
      cases hqueue : s.rspMq with
      | nil =>
          simp only [hqueue, Option.some.injEq] at hnext
          obtain rfl := hnext
          have hphase := effort_setPhase s t .idle
          simp only [hlooping, phaseEffort] at hphase
          omega
      | cons om rest =>
          simp only [hqueue, Option.some.injEq] at hnext
          obtain rfl := hnext
          have hphase := effort_setPhase { s with rspMq := rest } t (.sending om)
          have hrest : ({ s with rspMq := rest } : Outgoing).effort + 2 = s.effort := by
            simp only [effort, hqueue, List.length_cons]
            omega
          simp only [hlooping, phaseEffort] at hphase
          omega
  | sendto t room =>
      obtain rfl : room = true := hact
      cases hphase : s.phase t with
      | sending om =>
          simp only [step, hphase, if_true, Option.some.injEq] at hstep
          obtain rfl := hstep
          have hsent := effort_setPhase { s with taken := s.taken ++ [om] } t .looping
          have hsame : ({ s with taken := s.taken ++ [om] } : Outgoing).effort = s.effort := rfl
          simp only [hphase, phaseEffort] at hsent
          omega
      | _ => simp [step, hphase] at hstep
  | reinsert t =>
      cases hphase : s.phase t with
      | refused om =>
          simp only [step, hphase, Option.some.injEq] at hstep
          obtain rfl := hstep
          have hback := effort_setPhase { s with rspMq := om :: s.rspMq } t .idle
          have hmore : ({ s with rspMq := om :: s.rspMq } : Outgoing).effort = s.effort + 2 := by
            simp only [effort, List.length_cons]
            omega
          simp only [hphase, phaseEffort] at hback
          omega
      | _ => simp [step, hphase] at hstep

theorem Blocked.earlier {acts : List SendAct} {act : SendAct} (h : Blocked (acts ++ [act]))
    (hact : Sends act) : Blocked acts := by
  obtain ⟨before, t, after, heq, hafter⟩ := h
  rcases List.eq_nil_or_concat after with rfl | ⟨rest, last, rfl⟩
  · obtain ⟨-, hlast⟩ := List.append_inj' heq rfl
    obtain rfl := (List.cons.inj hlast).1
    cases hact
  · refine ⟨before, t, rest, ?_, fun hmem => hafter (by simp [hmem])⟩
    rw [List.concat_eq_append, ← List.cons_append, ← List.append_assoc] at heq
    exact (List.append_inj' heq rfl).1

theorem sends_put (s : Outgoing) (act : SendAct) (next : Outgoing) (hact : Sends act)
    (hstep : s.step act = some next) : next.put = s.put := by
  cases step_moves s act next hstep with
  | enqueued json om hput htaken hqueue hhand => exact absurd hact id
  | kept act hput htaken hqueue hhand => exact hput
  | got t om hands hput htaken hqueue => exact hput
  | sent t om hands hput htaken hqueue => exact hput
  | reinserted t om hands hput htaken hqueue => exact hput

-- What holds while the tasks send, after a run that has left the socket with room.
structure Draining (acts : List SendAct) (put : List Mbuf) (past : List SendAct) (s : Outgoing) :
    Prop where
  remembered : Remembered (acts ++ past) s
  room : ¬Blocked (acts ++ past)
  complete : s.Complete
  put : s.put = put

theorem draining_step (acts : List SendAct) (put : List Mbuf) (past : List SendAct) (s : Outgoing)
    (act : SendAct) (next : Outgoing) (h : Draining acts put past s) (hact : Sends act)
    (hstep : s.step act = some next) : Draining acts put (past ++ [act]) next := by
  have hsettled : s.Settled act := by
    cases act with
    | writable => exact absurd hact id
    | _ => exact trivial
  have hremembered := remembered_step (acts ++ past) s act next h.remembered hsettled hstep
  rw [List.append_assoc] at hremembered
  refine ⟨hremembered, ?_, complete_step s act next h.complete hstep, ?_⟩
  · intro hblocked
    rw [← List.append_assoc] at hblocked
    exact h.room (hblocked.earlier hact)
  · rw [sends_put s act next hact hstep, h.put]

-- Both tasks have come to an end, and there is no event to start one of them.
structure Quiet (s : Outgoing) : Prop where
  idle : ∀ t, s.phase t = .idle
  posted : s.posted = none

theorem quiet_of_stuck (s : Outgoing) (h : Transition.Stuck step (fun _ act => Sends act) s) :
    s.Quiet := by
  have hidle (t : Task) : s.phase t = .idle := by
    cases hphase : s.phase t with
    | idle => rfl
    | looping =>
        have hstep := h (.get t) trivial
        cases hqueue : s.rspMq <;> simp [step, hphase, hqueue] at hstep
    | sending om =>
        have hstep := h (.sendto t true) rfl
        simp [step, hphase] at hstep
    | refused om =>
        have hstep := h (.reinsert t) trivial
        simp [step, hphase] at hstep
  refine ⟨hidle, ?_⟩
  cases hposted : s.posted with
  | none => rfl
  | some t =>
      have hstep := h (.start t) trivial
      simp [step, hposted, hidle t] at hstep

theorem Draining.sent {acts past : List SendAct} {put : List Mbuf} {s : Outgoing}
    (h : Draining acts put past s) (hquiet : s.Quiet) : s.rspMq = [] ∧ s.taken.Perm put := by
  have hqueue : s.rspMq = [] := by
    by_contra hmessages
    rcases h.remembered.awaited hmessages with hposted | hblocked | ⟨t, hactive⟩
    · exact hposted hquiet.posted
    · exact h.room hblocked
    · rw [hquiet.idle t] at hactive
      exact hactive
  refine ⟨hqueue, ?_⟩
  have hcomplete := h.complete
  unfold Complete inHand at hcomplete
  rw [hqueue, hquiet.idle, hquiet.idle, h.put] at hcomplete
  simpa [SendPhase.hand] using hcomplete

-- While the socket has room, the two tasks need a number of steps that their order does not
-- change, and when they have come to an end all that was put is sent.
theorem run_drains (acts : List SendAct) (s : Outgoing)
    (hsettled : Transition.Meets step Settled initial acts) (hrun : initial.run acts = some s)
    (hroom : ¬Blocked acts) :
    (∀ (sends : List SendAct) (last : Outgoing),
      Transition.Meets step (fun _ act => Sends act) s sends →
      s.run sends = some last → sends.length + last.effort = s.effort ∧
        (Transition.Stuck step (fun _ act => Sends act) last →
          last.rspMq = [] ∧ last.taken.Perm s.put)) ∧
    ∃ (sends : List SendAct) (last : Outgoing),
      Transition.Meets step (fun _ act => Sends act) s sends ∧
      s.run sends = some last ∧ last.rspMq = [] ∧ last.taken.Perm s.put := by
  have hstart : Draining acts s.put [] s := by
    refine ⟨?_, ?_, run_complete acts s hrun, rfl⟩
    · rw [List.append_nil]
      exact run_remembered acts s hsettled hrun
    · rwa [List.append_nil]
  have hends (sends : List SendAct) (last : Outgoing)
      (hmeets : Transition.Meets step (fun _ act => Sends act) s sends)
      (hlast : s.run sends = some last) : Draining acts s.put sends last :=
    Transition.run_history hstart (draining_step acts s.put) hmeets hlast
  refine ⟨?_, ?_⟩
  · intro sends last hmeets hlast
    refine ⟨Transition.run_works sends_works s last sends hmeets hlast, ?_⟩
    intro hstuck
    exact (hends sends last hmeets hlast).sent (quiet_of_stuck last hstuck)
  · obtain ⟨sends, last, hmeets, hlast, hstuck⟩ := Transition.exists_run_stuck sends_works s
    obtain ⟨hqueue, hsent⟩ := (hends sends last hmeets hlast).sent (quiet_of_stuck last hstuck)
    exact ⟨sends, last, hmeets, hlast, hqueue, hsent⟩

theorem not_blocked_writable (acts : List SendAct) : ¬Blocked (acts ++ [.writable]) := by
  rintro ⟨before, t, after, heq, hafter⟩
  rcases List.eq_nil_or_concat after with rfl | ⟨rest, last, rfl⟩
  · obtain ⟨-, hlast⟩ := List.append_inj' heq rfl
    cases hlast
  · rw [List.concat_eq_append, ← List.cons_append, ← List.append_assoc] at heq
    obtain ⟨-, hlast⟩ := List.append_inj' heq rfl
    obtain rfl := (List.cons.inj hlast).1
    exact hafter (by simp)

-- Two messages, the first of which the socket refuses.
def refusedFirst : List SendAct :=
  [.enqueue [1], .enqueue [2], .start .blehostd, .get .blehostd, .sendto .blehostd false,
    .reinsert .blehostd]

-- Once the socket has room again both are sent.
theorem run_drains_both : ∃ (s : Outgoing) (sends : List SendAct) (last : Outgoing),
    initial.run (refusedFirst ++ [.writable]) = some s ∧ s.run sends = some last ∧
    last.taken.Perm [rspFrame [1], rspFrame [2]] := by
  have hsettled : Transition.Meets step Settled initial (refusedFirst ++ [.writable]) := by
    -- Only the report of the socket has to find no refused message.
    repeat apply Transition.meets_cons trivial rfl
    apply Transition.meets_cons (fun t => by cases t <;> exact id) rfl
    exact trivial
  have hrun : ∃ s : Outgoing, initial.run (refusedFirst ++ [.writable]) = some s ∧
      s.put = [rspFrame [1], rspFrame [2]] := ⟨_, rfl, rfl⟩
  obtain ⟨s, hs, hput⟩ := hrun
  obtain ⟨-, sends, last, -, hlast, -, hsent⟩ :=
    run_drains _ s hsettled hs (not_blocked_writable refusedFirst)
  rw [hput] at hsent
  exact ⟨s, sends, last, hs, hlast, hsent⟩

end Blehostd.Outgoing
