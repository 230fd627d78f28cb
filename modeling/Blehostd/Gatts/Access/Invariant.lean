import Blehostd.Gatts.Access.Theorems

namespace Blehostd.Gatts.Exchange

-- The callback is between the end of its wait and its reset of the status.
def Consuming (s : Exchange) : Prop :=
  match s.host with
  | .woken _ _ => True
  | .loaded _ _ _ => True
  | _ => False

def CountMatches (s : Exchange) : Prop :=
  s.access.sem = if s.access.attStatus = BHD_GATTS_ACCESS_STATUS_NONE then 0 else 1

-- A callback has taken the reply and has reset the status after that.
def Taken (s : Exchange) (reply : Nat) : Prop :=
  (∃ done ∈ s.finished, done.consumed = some reply) ∨
    match s.host with
    | .reset _ taken _ => taken = some reply
    | .measured _ taken _ _ => taken = some reply
    | _ => False

-- A reply that is not consumed keeps the next one out, and no callback returns the sentinel.
structure Guarded (s : Exchange) : Prop where
  refuses : ∀ reply < s.accepted.length, ¬s.Taken reply → ∀ r : Reply,
    s.access.store r.attStatus (some r.data) r.data.length = (SYS_ENOENT, s.access)
  returned : ∀ done ∈ s.finished, done.status ≠ BHD_GATTS_ACCESS_STATUS_NONE

-- The representation invariant of the pending access, with what follows from it.
structure Represented (s : Exchange) : Prop extends Guarded s where
  count : ¬s.Consuming → s.CountMatches

-- A reply that is accepted carries another status than the sentinel and does
-- not come while a callback is about to reset the status. No wait times out
-- inside bhd_gatts_set_access_result.
def Orderly (s : Exchange) : Act → Prop
  | .reply r => s.access.attStatus = BHD_GATTS_ACCESS_STATUS_NONE →
      r.attStatus ≠ BHD_GATTS_ACCESS_STATUS_NONE ∧ ¬s.Consuming
  | .timeout => s.releasing = false
  | _ => True

-- The callback holds the reply and has not reset the status.
def Holds (s : Exchange) (reply : Nat) : Prop :=
  match s.host with
  | .woken _ held => held = reply
  | .loaded _ held _ => held = some reply
  | _ => False

-- The status is set exactly when one accepted reply is still to be taken.
def Balanced (s : Exchange) : Prop :=
  s.accepted.length =
    s.wakes + if s.access.attStatus = BHD_GATTS_ACCESS_STATUS_NONE then 0 else 1

def PhaseSound (s : Exchange) : Prop :=
  match s.host with
  | .idle => s.Balanced
  | .pending _ => s.Balanced
  | .woken _ _ =>
      s.wakes = s.accepted.length ∧ s.access.attStatus ≠ BHD_GATTS_ACCESS_STATUS_NONE
  | .loaded _ reply status =>
      s.wakes = s.accepted.length ∧ status ≠ BHD_GATTS_ACCESS_STATUS_NONE ∧
        (reply ≠ none → s.access.attStatus ≠ BHD_GATTS_ACCESS_STATUS_NONE)
  | .reset _ _ status => s.Balanced ∧ status ≠ BHD_GATTS_ACCESS_STATUS_NONE
  | .measured _ _ status _ => s.Balanced ∧ status ≠ BHD_GATTS_ACCESS_STATUS_NONE

structure Sound (s : Exchange) : Prop where
  released : s.answered + (if s.releasing then 1 else 0) = s.accepted.length
  woken : s.wakes + s.access.sem = s.answered
  returned : ∀ done ∈ s.finished, done.status ≠ BHD_GATTS_ACCESS_STATUS_NONE
  taken : ∀ reply < s.wakes, s.Taken reply ∨ s.Holds reply
  phase : s.PhaseSound

theorem sound_initial : initial.Sound where
  released := rfl
  woken := rfl
  returned := by
    intro done hdone
    exact absurd hdone List.not_mem_nil
  taken := by
    intro reply hreply
    exact absurd hreply (Nat.not_lt_zero reply)
  phase := rfl

theorem sound_send (s : Exchange) (read : Bool) (h : s.Sound) (hhost : s.host = .idle) :
    Sound { s with host := .pending read } := by
  obtain ⟨access, host, releasing, answered, wakes, accepted, finished⟩ := s
  obtain rfl : host = .idle := hhost
  exact ⟨h.released, h.woken, h.returned, h.taken, h.phase⟩

-- A token means that the status is set, and the callback takes the only reply
-- that is left.
theorem sound_wake (s : Exchange) (read : Bool) (h : s.Sound) (hhost : s.host = .pending read)
    (hsem : 0 < s.access.sem) :
    Sound { s with
      access := { s.access with sem := s.access.sem - 1 }
      host := .woken read s.wakes
      wakes := s.wakes + 1 } := by
  obtain ⟨access, host, releasing, answered, wakes, accepted, finished⟩ := s
  obtain rfl : host = .pending read := hhost
  have hreleased : answered + (if releasing then 1 else 0) = accepted.length := h.released
  have hwoken : wakes + access.sem = answered := h.woken
  have hsem' : 0 < access.sem := hsem
  have hbalanced : accepted.length =
    wakes + if access.attStatus = BHD_GATTS_ACCESS_STATUS_NONE then 0 else 1 := h.phase
  have hset : access.attStatus ≠ BHD_GATTS_ACCESS_STATUS_NONE := by
    intro hnone
    rw [if_pos hnone] at hbalanced
    omega
  rw [if_neg hset] at hbalanced
  refine ⟨h.released, ?_, h.returned, ?_, hbalanced.symm, hset⟩
  · show wakes + 1 + (access.sem - 1) = answered
    omega
  · intro reply hreply
    have hreply' : reply < wakes + 1 := hreply
    by_cases hlast : wakes = reply
    · exact Or.inr hlast
    · exact Or.inl ((h.taken reply (show reply < wakes by omega)).resolve_right id)

-- Outside bhd_gatts_set_access_result an empty semaphore means that no reply
-- is left.
theorem sound_timeout (s : Exchange) (read : Bool) (h : s.Sound) (hreleasing : s.releasing = false)
    (hhost : s.host = .pending read) (hsem : s.access.sem = 0) :
    Sound { s with host := .loaded read none BLE_ATT_ERR_UNLIKELY } := by
  obtain ⟨access, host, releasing, answered, wakes, accepted, finished⟩ := s
  obtain rfl : host = .pending read := hhost
  obtain rfl : releasing = false := hreleasing
  have hreleased : answered = accepted.length := h.released
  have hwoken : wakes + access.sem = answered := h.woken
  have hsem' : access.sem = 0 := hsem
  have hall : wakes = accepted.length := by omega
  refine ⟨h.released, h.woken, h.returned, ?_, hall, by decide, ?_⟩
  · intro reply hreply
    exact Or.inl ((h.taken reply hreply).resolve_right id)
  · intro hsome
    exact absurd rfl hsome

theorem sound_load (s : Exchange) (read : Bool) (reply : Nat) (h : s.Sound)
    (hhost : s.host = .woken read reply) :
    Sound { s with host := .loaded read (some reply) s.access.attStatus } := by
  obtain ⟨access, host, releasing, answered, wakes, accepted, finished⟩ := s
  obtain rfl : host = .woken read reply := hhost
  obtain ⟨hall, hset⟩ := h.phase
  refine ⟨h.released, h.woken, h.returned, ?_, hall, hset, fun _ => hset⟩
  intro other hother
  exact (h.taken other hother).imp_right (congrArg some)

theorem sound_reset (s : Exchange) (read : Bool) (reply : Option Nat) (status : UInt8)
    (h : s.Sound) (hhost : s.host = .loaded read reply status) :
    Sound { s with
      access := { s.access with attStatus := BHD_GATTS_ACCESS_STATUS_NONE }
      host := .reset read reply status } := by
  obtain ⟨access, host, releasing, answered, wakes, accepted, finished⟩ := s
  obtain rfl : host = .loaded read reply status := hhost
  obtain ⟨hall, hstatus, _⟩ := h.phase
  refine ⟨h.released, h.woken, h.returned, ?_, hall.symm, hstatus⟩
  intro other hother
  rcases h.taken other hother with (hdone | hnever) | hheld
  · exact Or.inl (Or.inl hdone)
  · exact absurd hnever id
  · exact Or.inl (Or.inr hheld)

theorem sound_measure (s : Exchange) (read : Bool) (reply : Option Nat) (status : UInt8)
    (h : s.Sound) (hhost : s.host = .reset read reply status) :
    Sound { s with host := .measured read reply status s.access.valueLen } := by
  obtain ⟨access, host, releasing, answered, wakes, accepted, finished⟩ := s
  obtain rfl : host = .reset read reply status := hhost
  exact ⟨h.released, h.woken, h.returned, h.taken, h.phase⟩

theorem sound_finish (s : Exchange) (read : Bool) (reply : Option Nat) (status : UInt8) (len : Nat)
    (data : Option (List UInt8)) (h : s.Sound) (hhost : s.host = .measured read reply status len) :
    Sound { s with
      host := .idle
      finished := s.finished ++ [⟨read, reply, status, data⟩] } := by
  obtain ⟨access, host, releasing, answered, wakes, accepted, finished⟩ := s
  obtain rfl : host = .measured read reply status len := hhost
  obtain ⟨hbalanced, hstatus⟩ := h.phase
  refine ⟨h.released, h.woken, ?_, ?_, hbalanced⟩
  · intro done hdone
    rcases List.mem_append.mp hdone with hold | hnew
    · exact h.returned done hold
    · rw [List.mem_singleton.mp hnew]
      exact hstatus
  · intro other hother
    rcases h.taken other hother with (⟨done, hdone, hconsumed⟩ | htaken) | hheld
    · exact Or.inl (Or.inl ⟨done, List.mem_append_left _ hdone, hconsumed⟩)
    · exact Or.inl (Or.inl ⟨_, List.mem_append_right _ (List.mem_singleton_self _), htaken⟩)
    · exact absurd hheld id

-- The status was not set, so all replies before this one have been taken.
theorem balanced_accept (s : Exchange) (stored : Access) (entry : Accepted) (releasing : Bool)
    (h : s.Balanced) (hnone : s.access.attStatus = BHD_GATTS_ACCESS_STATUS_NONE)
    (hset : stored.attStatus ≠ BHD_GATTS_ACCESS_STATUS_NONE) :
    Balanced { s with
      access := stored
      releasing := releasing
      accepted := s.accepted ++ [entry] } := by
  unfold Balanced at h ⊢
  rw [if_pos hnone] at h
  rw [if_neg hset, List.length_append, h]
  rfl

theorem sound_accept (s : Exchange) (stored : Access) (entry : Accepted) (h : s.Sound)
    (hreleasing : s.releasing = false)
    (hnone : s.access.attStatus = BHD_GATTS_ACCESS_STATUS_NONE)
    (hset : stored.attStatus ≠ BHD_GATTS_ACCESS_STATUS_NONE)
    (hsem : stored.sem = s.access.sem) (hconsuming : ¬s.Consuming) :
    Sound { s with
      access := stored
      releasing := true
      accepted := s.accepted ++ [entry] } := by
  refine ⟨?_, ?_, h.returned, h.taken, ?_⟩
  · have hreleased := h.released
    simp only [hreleasing, Bool.false_eq_true, if_false, Nat.add_zero] at hreleased
    simp [hreleased]
  · show s.wakes + stored.sem = s.answered
    rw [hsem]
    exact h.woken
  · have hbalanced : ∀ balanced : s.Balanced, _ := fun balanced =>
      balanced_accept s stored entry true balanced hnone hset
    obtain ⟨access, host, releasing, answered, wakes, accepted, finished⟩ := s
    cases host with
    | idle => exact hbalanced h.phase
    | pending read => exact hbalanced h.phase
    | woken read reply => exact absurd trivial hconsuming
    | loaded read reply status => exact absurd trivial hconsuming
    | reset read reply status => exact ⟨hbalanced h.phase.1, h.phase.2⟩
    | measured read reply status len => exact ⟨hbalanced h.phase.1, h.phase.2⟩

theorem sound_release (s : Exchange) (h : s.Sound) (hreleasing : s.releasing = true) :
    Sound { s with
      access := s.access.semRelease
      releasing := false
      answered := s.answered + 1 } := by
  obtain ⟨access, host, releasing, answered, wakes, accepted, finished⟩ := s
  obtain rfl : releasing = true := hreleasing
  have hwoken : wakes + access.sem = answered := h.woken
  refine ⟨h.released, ?_, h.returned, h.taken, h.phase⟩
  show wakes + (access.sem + 1) = answered + 1
  omega

theorem sound_step (s : Exchange) (act : Act) (next : Exchange) (h : s.Sound) (ho : s.Orderly act)
    (hstep : s.step act = some next) : next.Sound := by
  cases step_moves s act next hstep with
  | send read hhost => exact sound_send s read h hhost
  | wake read hhost hsem => exact sound_wake s read h hhost hsem
  | timeout read hhost hsem => exact sound_timeout s read h ho hhost hsem
  | load read reply hhost => exact sound_load s read reply h hhost
  | reset read reply status hhost => exact sound_reset s read reply status h hhost
  | measure read reply status hhost => exact sound_measure s read reply status h hhost
  | finish read reply status len hhost => exact sound_finish s read reply status len _ h hhost
  | accept r stored hreleasing hnone hstatus hsem _ =>
      obtain ⟨hother, hconsuming⟩ := ho hnone
      exact sound_accept s stored _ h hreleasing hnone (hstatus ▸ hother) hsem hconsuming
  | refuse r => exact h
  | release hreleasing => exact sound_release s h hreleasing

theorem balanced_of_not_consuming (s : Exchange) (h : s.PhaseSound) (hc : ¬s.Consuming) :
    s.Balanced := by
  obtain ⟨access, host, releasing, answered, wakes, accepted, finished⟩ := s
  cases host with
  | idle => exact h
  | pending read => exact h
  | woken read reply => exact absurd trivial hc
  | loaded read reply status => exact absurd trivial hc
  | reset read reply status => exact h.1
  | measured read reply status len => exact h.1

theorem not_holds_of_not_consuming (s : Exchange) (hc : ¬s.Consuming) (reply : Nat) :
    ¬s.Holds reply := by
  obtain ⟨access, host, releasing, answered, wakes, accepted, finished⟩ := s
  cases host with
  | woken read held => exact absurd trivial hc
  | loaded read held status => exact absurd trivial hc
  | _ => exact id

-- The token of the last accepted reply arrives with its release.
theorem sound_count (s : Exchange) (h : s.Sound) (hc : ¬s.Consuming) :
    s.CountMatches ↔ s.releasing = false := by
  have hreleased := h.released
  have hwoken := h.woken
  have hbalanced := balanced_of_not_consuming s h.phase hc
  unfold Balanced at hbalanced
  unfold CountMatches
  cases hr : s.releasing with
  | false =>
      simp only [hr, Bool.false_eq_true, if_false] at hreleased
      simp only [iff_true]
      omega
  | true =>
      simp only [hr, if_true] at hreleased
      simp only [Bool.true_eq_false, iff_false]
      omega

theorem status_set (s : Exchange) (h : s.Sound) (reply : Nat) (hreply : reply < s.accepted.length)
    (htaken : ¬s.Taken reply) : s.access.attStatus ≠ BHD_GATTS_ACCESS_STATUS_NONE := by
  by_cases hc : s.Consuming
  · obtain ⟨access, host, releasing, answered, wakes, accepted, finished⟩ := s
    cases host with
    | woken read held => exact h.phase.2
    | loaded read held status =>
        obtain ⟨hall, _, hset⟩ := h.phase
        have hreply' : reply < wakes := Nat.lt_of_lt_of_eq hreply hall.symm
        have hheld : held = some reply := (h.taken reply hreply').resolve_left htaken
        exact hset (by simp [hheld])
    | _ => exact absurd hc id
  · intro hnone
    have hbalanced := balanced_of_not_consuming s h.phase hc
    unfold Balanced at hbalanced
    rw [if_pos hnone] at hbalanced
    exact not_holds_of_not_consuming s hc reply ((h.taken reply (by omega)).resolve_left htaken)

theorem sound_guarded (s : Exchange) (h : s.Sound) : s.Guarded where
  refuses reply hreply htaken r := store_refuses s.access r (status_set s h reply hreply htaken)
  returned := h.returned

-- A callback that consumes has the token of the last accepted reply.
theorem released_of_consuming (s : Exchange) (h : s.Sound) (hc : s.Consuming) :
    s.releasing = false := by
  have hreleased := h.released
  have hwoken := h.woken
  have hall : s.wakes = s.accepted.length := by
    obtain ⟨access, host, releasing, answered, wakes, accepted, finished⟩ := s
    cases host with
    | woken read held => exact h.phase.1
    | loaded read held status => exact h.phase.1
    | _ => exact absurd hc id
  cases hr : s.releasing with
  | false => rfl
  | true =>
      simp only [hr, if_true] at hreleased
      omega

theorem sound_represented_iff (s : Exchange) (h : s.Sound) :
    s.Represented ↔ s.releasing = false := by
  constructor
  · intro hrepresented
    by_cases hc : s.Consuming
    · exact released_of_consuming s h hc
    · exact (sound_count s h hc).mp (hrepresented.count hc)
  · intro hreleased
    exact { sound_guarded s h with count := fun hc => (sound_count s h hc).mpr hreleased }

-- In a run of orderly steps the invariant holds in every state but those in which the release
-- of an accepted reply is still to come, and what follows from it holds in these too.
theorem run_represented (acts : List Act) (s : Exchange)
    (ho : Transition.Meets step Orderly initial acts) (hrun : initial.run acts = some s) :
    (s.Represented ↔ s.releasing = false) ∧ s.Guarded := by
  have hsound := Transition.run_invariant sound_step initial s acts sound_initial ho hrun
  exact ⟨sound_represented_iff s hsound, sound_guarded s hsound⟩

-- An early reply: the count is 1 before the read starts, and 0 after it.
theorem run_represented_early : ∃ s : Exchange, s.Represented ∧
    s.access.attStatus = 0 ∧ s.access.sem = 1 := by
  refine ⟨_, (run_represented [.reply oneByteRead, .release] _ ?_ rfl).1.mpr rfl, rfl, rfl⟩
  apply Transition.meets_cons (fun _ => ⟨by decide, id⟩) rfl
  apply Transition.meets_cons trivial rfl
  exact trivial

def sentinelReply : Reply := ⟨BHD_GATTS_ACCESS_STATUS_NONE, [1], oneByteRead.fits⟩

-- The decoder admits 255. The token then comes with a status that is not set,
-- the next reply is accepted as well, and the callback returns the sentinel.
theorem sentinel_reply_not_represented :
    (∃ s : Exchange, initial.run [.send true, .reply sentinelReply, .release] = some s ∧
      s.releasing = false ∧ ¬s.Consuming ∧ ¬s.CountMatches ∧
      ∃ a, s.access.store 0 (some [1]) 1 = (0, a)) ∧
    ∃ s : Exchange, initial.run [.send true, .reply sentinelReply, .release, .wake, .load, .reset,
      .measure, .finish] = some s ∧
      ∃ done ∈ s.finished, done.status = BHD_GATTS_ACCESS_STATUS_NONE := by
  refine ⟨⟨_, rfl, rfl, id, ?_, _, rfl⟩, _, rfl, _, List.mem_singleton_self _, rfl⟩
  show ¬(1 = 0)
  decide

-- A wait that times out inside bhd_gatts_set_access_result leaves the token behind.
example : ∃ s : Exchange, initial.run [.send true, .reply oneByteRead, .timeout, .reset, .release] =
    some s ∧ s.access.attStatus = BHD_GATTS_ACCESS_STATUS_NONE ∧ s.access.sem = 1 :=
  ⟨_, rfl, rfl, rfl⟩

end Blehostd.Gatts.Exchange
