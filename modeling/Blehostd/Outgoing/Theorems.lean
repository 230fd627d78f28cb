import Mathlib.Data.List.Perm.Basic
import Blehostd.Outgoing

namespace Blehostd.Outgoing

-- The messages that have left the queue and may come back to its head.
def inHand (s : Outgoing) : List Mbuf :=
  (s.phase .blehostd).hand ++ (s.phase .main).hand

-- Every message was taken, or is in hand, or is on the queue, and only once.
def Complete (s : Outgoing) : Prop :=
  (s.taken ++ s.inHand ++ s.rspMq).Perm s.put

-- The socket has taken the oldest messages in their order.
structure Ordered (s : Outgoing) : Prop where
  oldest : s.taken <+: s.put
  complete : s.Complete

-- No task takes a message from the queue while the other has one in hand.
def Alone (s : Outgoing) : SendAct → Prop
  | .get t => s.rspMq ≠ [] → (s.phase t.other).hand = []
  | _ => True

-- One task at most has a message in hand, the oldest that was not taken.
def InOrder (s : Outgoing) : Prop :=
  ∃ t, (s.phase t.other).hand = [] ∧ s.put = s.taken ++ (s.phase t).hand ++ s.rspMq

theorem other_ne (t : Task) : t.other ≠ t := by
  cases t <;> decide

theorem eq_or_other (t u : Task) : t = u ∨ t = u.other := by
  cases t <;> cases u <;> decide

theorem setPhase_same (s : Outgoing) (t : Task) (phase : SendPhase) :
    (s.setPhase t phase).phase t = phase :=
  Function.update_self ..

theorem setPhase_other (s : Outgoing) (t : Task) (phase : SendPhase) :
    (s.setPhase t phase).phase t.other = s.phase t.other :=
  Function.update_of_ne (other_ne t) ..

-- A phase with the same message in hand.
theorem hand_setPhase (s : Outgoing) (t : Task) (phase : SendPhase)
    (h : phase.hand = (s.phase t).hand) (u : Task) :
    ((s.setPhase t phase).phase u).hand = (s.phase u).hand := by
  rcases eq_or_other u t with rfl | rfl
  · rw [setPhase_same, h]
  · rw [setPhase_other]

theorem post_eq (s : Outgoing) (t : Task) : ∃ posted, s.post t = { s with posted := posted } := by
  unfold post
  split
  · exact ⟨_, rfl⟩
  · exact ⟨s.posted, rfl⟩

-- What the hand of one task held and holds, while the other hand stays the same.
structure Hands (s next : Outgoing) (t : Task) (held holds : List Mbuf) : Prop where
  held : (s.phase t).hand = held
  holds : (next.phase t).hand = holds
  other : (next.phase t.other).hand = (s.phase t.other).hand

-- What a step does to the messages: it leaves all of them where they are, or it
-- adds one to the queue, or one of them goes from the queue to a hand, from a
-- hand to the socket, or from a hand back to the head of the queue.
inductive Moves (s next : Outgoing) : SendAct → Prop where
  | kept (act : SendAct) (hput : next.put = s.put) (htaken : next.taken = s.taken)
      (hqueue : next.rspMq = s.rspMq) (hhand : ∀ t, (next.phase t).hand = (s.phase t).hand) :
      Moves s next act
  | enqueued (json : Text) (om : Mbuf) (hput : next.put = s.put ++ [om])
      (htaken : next.taken = s.taken) (hqueue : next.rspMq = s.rspMq ++ [om])
      (hhand : ∀ t, (next.phase t).hand = (s.phase t).hand) : Moves s next (.enqueue json)
  | got (t : Task) (om : Mbuf) (hands : Hands s next t [] [om]) (hput : next.put = s.put)
      (htaken : next.taken = s.taken) (hqueue : s.rspMq = om :: next.rspMq) :
      Moves s next (.get t)
  | sent (t : Task) (om : Mbuf) (hands : Hands s next t [om] []) (hput : next.put = s.put)
      (htaken : next.taken = s.taken ++ [om]) (hqueue : next.rspMq = s.rspMq) :
      Moves s next (.sendto t true)
  | reinserted (t : Task) (om : Mbuf) (hands : Hands s next t [om] []) (hput : next.put = s.put)
      (htaken : next.taken = s.taken) (hqueue : next.rspMq = om :: s.rspMq) :
      Moves s next (.reinsert t)

-- The hands after a task goes to another phase.
theorem hands_setPhase (s other : Outgoing) (t : Task) (phase : SendPhase) (held : List Mbuf)
    (hheld : (s.phase t).hand = held) (hphase : other.phase = s.phase) :
    Hands s (other.setPhase t phase) t held phase.hand where
  held := hheld
  holds := by rw [setPhase_same]
  other := by rw [setPhase_other, hphase]

theorem step_moves (s : Outgoing) (act : SendAct) (next : Outgoing)
    (hstep : s.step act = some next) : s.Moves next act := by
  cases act with
  | enqueue json =>
      by_cases hlong : BLEHOSTD_MAX_MSG_SZ < json.length
      · have hsame : s = next := by simpa [step, enqueueRsp, hlong, SYS_EINVAL] using hstep
        subst hsame
        exact .kept _ rfl rfl rfl fun _ => rfl
      · simp only [step, enqueueRsp, hlong, if_false, if_true, Option.some.injEq] at hstep
        obtain ⟨posted, hpost⟩ := post_eq
          { s with rspMq := s.rspMq ++ [rspFrame json], put := s.put ++ [rspFrame json] } .blehostd
        rw [hpost] at hstep
        subst hstep
        exact .enqueued json _ rfl rfl rfl fun _ => rfl
  | writable =>
      obtain ⟨posted, hpost⟩ := post_eq s .main
      obtain rfl : s.post .main = next := Option.some.inj hstep
      rw [hpost]
      exact .kept _ rfl rfl rfl fun _ => rfl
  | start t =>
      obtain ⟨⟨_, hidle⟩, hnext⟩ := Option.ite_none_right_eq_some.mp hstep
      obtain rfl := Option.some.inj hnext
      exact .kept _ rfl rfl rfl
        (hand_setPhase { s with posted := none } t _ (by rw [hidle]; rfl))
  | get t =>
      obtain ⟨hlooping, hnext⟩ := Option.ite_none_right_eq_some.mp hstep
      have hhand : (s.phase t).hand = [] := by rw [hlooping]; rfl
      cases hqueue : s.rspMq with
      | nil =>
          simp only [hqueue, Option.some.injEq] at hnext
          obtain rfl := hnext
          exact .kept _ rfl rfl rfl (hand_setPhase s t _ hhand.symm)
      | cons om rest =>
          simp only [hqueue, Option.some.injEq] at hnext
          obtain rfl := hnext
          exact .got t om (hands_setPhase s _ t _ _ hhand rfl) rfl rfl hqueue
  | sendto t room =>
      cases hphase : s.phase t with
      | sending om =>
          simp only [step, hphase] at hstep
          have hhand : (s.phase t).hand = [om] := by rw [hphase]; rfl
          cases room with
          | true =>
              simp only [if_true, Option.some.injEq] at hstep
              obtain rfl := hstep
              exact .sent t om (hands_setPhase s _ t _ _ hhand rfl) rfl rfl rfl
          | false =>
              simp only [Bool.false_eq_true, if_false, Option.some.injEq] at hstep
              obtain rfl := hstep
              exact .kept _ rfl rfl rfl (hand_setPhase s t _ hhand.symm)
      | _ => simp [step, hphase] at hstep
  | reinsert t =>
      cases hphase : s.phase t with
      | refused om =>
          have hhand : (s.phase t).hand = [om] := by rw [hphase]; rfl
          simp only [step, hphase, Option.some.injEq] at hstep
          obtain rfl := hstep
          exact .reinserted t om (hands_setPhase s _ t _ _ hhand rfl) rfl rfl rfl
      | _ => simp [step, hphase] at hstep

theorem inHand_perm (s : Outgoing) (t : Task) :
    s.inHand.Perm ((s.phase t).hand ++ (s.phase t.other).hand) := by
  cases t with
  | blehostd => exact List.Perm.refl _
  | main => exact List.perm_append_comm

-- A message moves between the queue, the hand of one task and the socket.
theorem complete_moved (s next : Outgoing) (t : Task) (held holds : List Mbuf) (h : s.Complete)
    (hands : Hands s next t held holds) (hput : next.put = s.put)
    (hmoved : (next.taken ++ holds ++ next.rspMq).Perm (s.taken ++ held ++ s.rspMq)) :
    next.Complete := by
  have hnext := next.inHand_perm t
  have hs := s.inHand_perm t
  rw [hands.holds, hands.other] at hnext
  rw [hands.held] at hs
  unfold Complete at h ⊢
  rw [hput]
  refine List.Perm.trans ?_ h
  rw [List.perm_iff_count] at hnext hs hmoved ⊢
  intro om
  have hnext' := hnext om
  have hs' := hs om
  have hmoved' := hmoved om
  simp only [List.count_append] at hnext' hs' hmoved' ⊢
  omega

theorem complete_step (s : Outgoing) (act : SendAct) (next : Outgoing) (h : s.Complete)
    (hstep : s.step act = some next) : next.Complete := by
  cases step_moves s act next hstep with
  | kept act hput htaken hqueue hhand =>
      unfold Complete inHand
      rw [hput, htaken, hqueue, hhand, hhand]
      exact h
  | enqueued json om hput htaken hqueue hhand =>
      unfold Complete inHand
      rw [hput, htaken, hqueue, hhand, hhand, ← List.append_assoc]
      exact List.Perm.append_right [om] h
  | got t om hands hput htaken hqueue =>
      refine complete_moved s next t _ _ h hands hput ?_
      rw [htaken, hqueue]
      simp
  | sent t om hands hput htaken hqueue =>
      refine complete_moved s next t _ _ h hands hput ?_
      rw [htaken, hqueue]
      simp
  | reinserted t om hands hput htaken hqueue =>
      refine complete_moved s next t _ _ h hands hput ?_
      rw [htaken, hqueue]
      simp

-- However the tasks interleave, no message is lost and none is sent twice.
theorem run_complete (acts : List SendAct) (s : Outgoing) (hrun : initial.run acts = some s) :
    s.Complete :=
  Transition.run_keeps complete_step initial s acts (List.Perm.refl _) hrun

theorem inOrder_initial : initial.InOrder :=
  ⟨.main, rfl, rfl⟩

theorem inOrder_holder (s : Outgoing) (h : s.InOrder) (t : Task) (om : Mbuf)
    (hhand : (s.phase t).hand = [om]) :
    (s.phase t.other).hand = [] ∧ s.put = s.taken ++ [om] ++ s.rspMq := by
  obtain ⟨u, hother, horder⟩ := h
  rcases eq_or_other t u with rfl | rfl
  · exact ⟨hother, by rw [horder, hhand]⟩
  · rw [hother] at hhand
    cases hhand

theorem inOrder_empty (s : Outgoing) (h : s.InOrder) (t : Task) (hhand : (s.phase t).hand = [])
    (hother : (s.phase t.other).hand = []) : s.put = s.taken ++ s.rspMq := by
  obtain ⟨u, _, horder⟩ := h
  rcases eq_or_other u t with rfl | rfl
  · rw [horder, hhand, List.append_nil]
  · rw [horder, hother, List.append_nil]

theorem inOrder_step (s : Outgoing) (act : SendAct) (next : Outgoing) (h : s.InOrder)
    (ha : s.Alone act) (hstep : s.step act = some next) : next.InOrder := by
  cases step_moves s act next hstep with
  | kept act hput htaken hqueue hhand =>
      obtain ⟨t, hother, horder⟩ := h
      exact ⟨t, by rw [hhand, hother], by rw [hput, htaken, hqueue, hhand, horder]⟩
  | enqueued json om hput htaken hqueue hhand =>
      obtain ⟨t, hother, horder⟩ := h
      refine ⟨t, by rw [hhand, hother], ?_⟩
      rw [hput, htaken, hqueue, hhand, horder, List.append_assoc]
  | got t om hands hput htaken hqueue =>
      have hother : (s.phase t.other).hand = [] := ha (by simp [hqueue])
      have horder := inOrder_empty s h t hands.held hother
      refine ⟨t, by rw [hands.other, hother], ?_⟩
      rw [hput, horder, hqueue, htaken, hands.holds]
      simp
  | sent t om hands hput htaken hqueue =>
      obtain ⟨hother, horder⟩ := inOrder_holder s h t om hands.held
      refine ⟨t, by rw [hands.other, hother], ?_⟩
      rw [hput, horder, htaken, hqueue, hands.holds, List.append_nil]
  | reinserted t om hands hput htaken hqueue =>
      obtain ⟨hother, horder⟩ := inOrder_holder s h t om hands.held
      refine ⟨t, by rw [hands.other, hother], ?_⟩
      rw [hput, horder, htaken, hqueue, hands.holds]
      simp

theorem inOrder_oldest (s : Outgoing) (h : s.InOrder) : s.taken <+: s.put := by
  obtain ⟨t, _, horder⟩ := h
  rw [horder, List.append_assoc]
  exact List.prefix_append _ _

theorem run_ordered (acts : List SendAct) (s : Outgoing)
    (ha : Transition.Meets step Alone initial acts) (hrun : initial.run acts = some s) :
    s.Ordered where
  oldest := inOrder_oldest s
    (Transition.run_invariant inOrder_step initial s acts inOrder_initial ha hrun)
  complete := run_complete acts s hrun

-- The socket is full at first. The main task sends what the other put back.
theorem run_ordered_retry : ∃ s : Outgoing, s.Ordered ∧
    s.taken = [rspFrame [1], rspFrame [2]] := by
  let acts : List SendAct :=
    [.enqueue [1], .enqueue [2], .start .blehostd, .get .blehostd, .sendto .blehostd false,
      .reinsert .blehostd, .writable, .start .main, .get .main, .sendto .main true, .get .main,
      .sendto .main true]
  refine ⟨_, run_ordered acts _ ?_ rfl, rfl⟩
  -- Only a get has to find the other task with nothing in hand.
  repeat apply Transition.meets_cons trivial rfl
  apply Transition.meets_cons (fun _ => rfl) rfl
  repeat apply Transition.meets_cons trivial rfl
  apply Transition.meets_cons (fun _ => rfl) rfl
  apply Transition.meets_cons trivial rfl
  apply Transition.meets_cons (fun _ => rfl) rfl
  apply Transition.meets_cons trivial rfl
  exact trivial

-- Both tasks are in the loop. The second message overtakes the first.
theorem overtaking_not_ordered : ∃ s : Outgoing,
    initial.run [.enqueue [1], .enqueue [2], .start .blehostd, .get .blehostd, .writable,
      .start .main, .get .main, .sendto .main true] = some s ∧ ¬s.Ordered := by
  refine ⟨_, rfl, ?_⟩
  intro hordered
  have hfirst : rspFrame [2] = rspFrame [1] := (List.cons_prefix_cons.mp hordered.oldest).1
  exact absurd hfirst (by decide)

end Blehostd.Outgoing
