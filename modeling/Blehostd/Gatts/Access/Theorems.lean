import Blehostd.Gatts.Access

namespace Blehostd.Gatts

-- The callback returned the status of the reply and, if it read the
-- attribute and the status is 0, appended its data.
def Finished.Gives (done : Finished) (reply : Reply) : Prop :=
  done.status = reply.attStatus ∧
    (done.read = true → done.status = 0 → done.data = some reply.data)

theorem clampLen_fits (len : Nat) (h : len ≤ BLE_ATT_ATTR_MAX_LEN) :
    Access.clampLen len = len := by
  unfold Access.clampLen
  rw [if_neg (by omega), Int.toNat_natCast]

theorem store_accepts (a : Access) (r : Reply)
    (h : a.attStatus = BHD_GATTS_ACCESS_STATUS_NONE) :
    ∃ stored, a.store r.attStatus (some r.data) r.data.length = (0, stored) ∧
      stored.attStatus = r.attStatus ∧ stored.sem = a.sem ∧
      stored.value.take stored.valueLen = r.data := by
  refine ⟨_, if_pos h, rfl, rfl, ?_⟩
  simp [clampLen_fits _ r.fits]

theorem store_refuses (a : Access) (r : Reply)
    (h : a.attStatus ≠ BHD_GATTS_ACCESS_STATUS_NONE) :
    a.store r.attStatus (some r.data) r.data.length = (SYS_ENOENT, a) :=
  if_neg h

namespace Exchange

-- The accepted reply that the callback now running takes or has taken.
def inFlight (s : Exchange) : Option Nat :=
  match s.host with
  | .idle => none
  | .pending _ => some s.wakes
  | .woken _ reply => some reply
  | .loaded _ reply _ => reply
  | .reset _ reply _ => reply
  | .measured _ reply _ _ => reply

def Consumes (s : Exchange) (callback reply : Nat) : Prop :=
  ∃ done : Finished, s.finished[callback]? = some done ∧ done.consumed = some reply

def Returned (s : Exchange) : Prop :=
  ∀ (callback : Nat) (done : Finished) (reply : Nat), s.finished[callback]? = some done →
    done.consumed = some reply → ∃ entry : Accepted, s.accepted[reply]? = some entry ∧
      entry.pending = some callback ∧ done.Gives entry.reply

-- Every callback that did not time out gave the result of a reply accepted
-- during its own wait. Every accepted reply is consumed by the callback in
-- whose wait it was accepted and by no other, or that callback still runs and
-- takes this reply.
structure Matched (s : Exchange) : Prop where
  returned : s.Returned
  consumed : ∀ (reply : Nat) (entry : Accepted), s.accepted[reply]? = some entry →
    ∃ callback, entry.pending = some callback ∧
      (s.Consumes callback reply ∨
        callback = s.finished.length ∧ s.inFlight = some reply) ∧
      ∀ other, s.Consumes other reply → other = callback

-- A reply that is accepted comes in the wait of a callback whose release has
-- not happened, and no wait times out inside bhd_gatts_set_access_result.
def Timely (s : Exchange) : Act → Prop
  | .reply _ => s.access.attStatus = BHD_GATTS_ACCESS_STATUS_NONE →
      (∃ read, s.host = .pending read) ∧ s.access.sem = 0
  | .timeout => s.releasing = false
  | _ => True

def Quiet (s : Exchange) : Prop :=
  s.wakes = s.accepted.length ∧ s.access.attStatus = BHD_GATTS_ACCESS_STATUS_NONE

-- The last accepted reply belongs to the current callback, and these are its
-- status and the length of its bytes in the value buffer.
def Carries (s : Exchange) (reply : Nat) (status : UInt8) (len : Nat) : Prop :=
  ∃ entry : Accepted, s.accepted[reply]? = some entry ∧ reply + 1 = s.accepted.length ∧
    entry.pending = some s.finished.length ∧ status = entry.reply.attStatus ∧
    s.access.value.take len = entry.reply.data

def HostInv (s : Exchange) : Prop :=
  match s.host with
  | .idle => s.Quiet
  | .pending _ => s.Quiet ∨ s.Carries s.wakes s.access.attStatus s.access.valueLen
  | .woken _ reply =>
      s.wakes = s.accepted.length ∧ s.Carries reply s.access.attStatus s.access.valueLen
  | .loaded _ reply status =>
      s.wakes = s.accepted.length ∧ ∀ i, reply = some i → s.Carries i status s.access.valueLen
  | .reset _ reply status =>
      s.Quiet ∧ ∀ i, reply = some i → s.Carries i status s.access.valueLen
  | .measured _ reply status len =>
      s.Quiet ∧ ∀ i, reply = some i → s.Carries i status len

structure Inv (s : Exchange) : Prop where
  released : s.answered + (if s.releasing then 1 else 0) = s.accepted.length
  woken : s.wakes + s.access.sem = s.answered
  returned : s.Returned
  taken : ∀ (reply : Nat) (entry : Accepted), s.accepted[reply]? = some entry →
    s.inFlight ≠ some reply → ∃ callback, entry.pending = some callback ∧
      s.Consumes callback reply
  host : s.HostInv

-- What a step does to the whole state, and what it needs for that.
inductive Moves (s : Exchange) : Act → Exchange → Prop where
  | send (read : Bool) (hhost : s.host = .idle) :
      Moves s (.send read) { s with host := .pending read }
  | wake (read : Bool) (hhost : s.host = .pending read) (hsem : 0 < s.access.sem) :
      Moves s .wake { s with
        access := { s.access with sem := s.access.sem - 1 }
        host := .woken read s.wakes
        wakes := s.wakes + 1 }
  | timeout (read : Bool) (hhost : s.host = .pending read) (hsem : s.access.sem = 0) :
      Moves s .timeout { s with host := .loaded read none BLE_ATT_ERR_UNLIKELY }
  | load (read : Bool) (reply : Nat) (hhost : s.host = .woken read reply) :
      Moves s .load { s with host := .loaded read (some reply) s.access.attStatus }
  | reset (read : Bool) (reply : Option Nat) (status : UInt8)
      (hhost : s.host = .loaded read reply status) :
      Moves s .reset { s with
        access := { s.access with attStatus := BHD_GATTS_ACCESS_STATUS_NONE }
        host := .reset read reply status }
  | measure (read : Bool) (reply : Option Nat) (status : UInt8)
      (hhost : s.host = .reset read reply status) :
      Moves s .measure { s with host := .measured read reply status s.access.valueLen }
  | finish (read : Bool) (reply : Option Nat) (status : UInt8) (len : Nat)
      (hhost : s.host = .measured read reply status len) :
      Moves s .finish { s with
        host := .idle
        finished := s.finished ++ [⟨read, reply, status,
          if status = 0 ∧ read then some (s.access.value.take len) else none⟩] }
  | accept (r : Reply) (stored : Access) (hreleasing : s.releasing = false)
      (hnone : s.access.attStatus = BHD_GATTS_ACCESS_STATUS_NONE)
      (hstatus : stored.attStatus = r.attStatus) (hsem : stored.sem = s.access.sem)
      (hvalue : stored.value.take stored.valueLen = r.data) :
      Moves s (.reply r) { s with
        access := stored
        releasing := true
        accepted := s.accepted ++ [⟨r, s.waiter⟩] }
  | refuse (r : Reply) : Moves s (.reply r) s
  | release (hreleasing : s.releasing = true) :
      Moves s .release { s with
        access := s.access.semRelease
        releasing := false
        answered := s.answered + 1 }

theorem reply_moves (s next : Exchange) (r : Reply) (hstep : s.step (.reply r) = some next) :
    s.Moves (.reply r) next := by
  obtain ⟨hreleasing, hnext⟩ := Option.ite_none_left_eq_some.mp hstep
  by_cases hnone : s.access.attStatus = BHD_GATTS_ACCESS_STATUS_NONE
  · obtain ⟨stored, hstored, hstatus, hsem, hvalue⟩ := store_accepts s.access r hnone
    simp only [hstored, ite_true, Option.some.injEq] at hnext
    subst hnext
    exact .accept r stored (Bool.eq_false_iff.mpr hreleasing) hnone hstatus hsem hvalue
  · have hsame : next = s := by simpa [store_refuses s.access r hnone, SYS_ENOENT] using hnext.symm
    subst hsame
    exact .refuse r

theorem step_moves (s : Exchange) (act : Act) (next : Exchange) (hstep : s.step act = some next) :
    s.Moves act next := by
  cases act with
  | send read =>
      cases hhost : s.host with
      | idle =>
          simp only [step, hhost, Option.some.injEq] at hstep
          exact hstep ▸ .send read hhost
      | _ => simp [step, hhost] at hstep
  | wake =>
      cases hhost : s.host with
      | pending read =>
          simp only [step, hhost] at hstep
          obtain ⟨hsem, hnext⟩ := Option.ite_none_right_eq_some.mp hstep
          exact Option.some.inj hnext ▸ .wake read hhost hsem
      | _ => simp [step, hhost] at hstep
  | timeout =>
      cases hhost : s.host with
      | pending read =>
          simp only [step, hhost] at hstep
          obtain ⟨hsem, hnext⟩ := Option.ite_none_right_eq_some.mp hstep
          exact Option.some.inj hnext ▸ .timeout read hhost hsem
      | _ => simp [step, hhost] at hstep
  | load =>
      cases hhost : s.host with
      | woken read reply =>
          simp only [step, hhost, Option.some.injEq] at hstep
          exact hstep ▸ .load read reply hhost
      | _ => simp [step, hhost] at hstep
  | reset =>
      cases hhost : s.host with
      | loaded read reply status =>
          simp only [step, hhost, Option.some.injEq] at hstep
          exact hstep ▸ .reset read reply status hhost
      | _ => simp [step, hhost] at hstep
  | measure =>
      cases hhost : s.host with
      | reset read reply status =>
          simp only [step, hhost, Option.some.injEq] at hstep
          exact hstep ▸ .measure read reply status hhost
      | _ => simp [step, hhost] at hstep
  | finish =>
      cases hhost : s.host with
      | measured read reply status len =>
          simp only [step, hhost, Option.some.injEq] at hstep
          exact hstep ▸ .finish read reply status len hhost
      | _ => simp [step, hhost] at hstep
  | reply r => exact reply_moves s next r hstep
  | release =>
      obtain ⟨hreleasing, hnext⟩ := Option.ite_none_right_eq_some.mp hstep
      exact Option.some.inj hnext ▸ .release hreleasing

theorem inv_initial : initial.Inv where
  released := rfl
  woken := rfl
  returned := by
    intro callback done reply hdone
    simp [initial] at hdone
  taken := by
    intro reply entry hentry
    simp [initial] at hentry
  host := ⟨rfl, rfl⟩

theorem inv_send (s : Exchange) (read : Bool) (h : s.Inv) (hhost : s.host = .idle) :
    Inv { s with host := .pending read } := by
  obtain ⟨access, host, releasing, answered, wakes, accepted, finished⟩ := s
  obtain rfl : host = .idle := hhost
  refine ⟨h.released, h.woken, h.returned, ?_, Or.inl h.host⟩
  intro reply entry hentry _
  exact h.taken reply entry hentry (by simp [inFlight])

theorem inv_wake (s : Exchange) (read : Bool) (h : s.Inv) (hhost : s.host = .pending read)
    (hsem : 0 < s.access.sem) :
    Inv { s with
      access := { s.access with sem := s.access.sem - 1 }
      host := .woken read s.wakes
      wakes := s.wakes + 1 } := by
  obtain ⟨access, host, releasing, answered, wakes, accepted, finished⟩ := s
  obtain rfl : host = .pending read := hhost
  have hreleased : answered + (if releasing then 1 else 0) = accepted.length := h.released
  have hwoken : wakes + access.sem = answered := h.woken
  have hsem' : 0 < access.sem := hsem
  refine ⟨h.released, ?_, h.returned, ?_, ?_⟩
  · show wakes + 1 + (access.sem - 1) = answered
    omega
  · intro reply entry hentry hflight
    exact h.taken reply entry hentry hflight
  · rcases h.host with hquiet | hcarries
    · -- A token in the semaphore stands for an accepted reply.
      have hquiet' : wakes = accepted.length := hquiet.1
      omega
    · obtain ⟨entry, hentry, hlast, hcarried⟩ := hcarries
      exact ⟨hlast, entry, hentry, hlast, hcarried⟩

-- Outside bhd_gatts_set_access_result every accepted reply has been released,
-- so an empty semaphore means that no reply is on its way.
theorem inv_timeout (s : Exchange) (read : Bool) (h : s.Inv) (hreleasing : s.releasing = false)
    (hhost : s.host = .pending read) (hsem : s.access.sem = 0) :
    Inv { s with host := .loaded read none BLE_ATT_ERR_UNLIKELY } := by
  obtain ⟨access, host, releasing, answered, wakes, accepted, finished⟩ := s
  obtain rfl : host = .pending read := hhost
  obtain rfl : releasing = false := hreleasing
  have hreleased : answered = accepted.length := h.released
  have hwoken : wakes + access.sem = answered := h.woken
  have hsem' : access.sem = 0 := hsem
  have hall : wakes = accepted.length := by omega
  refine ⟨h.released, h.woken, h.returned, ?_, hall, ?_⟩
  · intro reply entry hentry _
    refine h.taken reply entry hentry ?_
    obtain ⟨hbound, _⟩ := List.getElem?_eq_some_iff.mp hentry
    have hbound' : reply < accepted.length := hbound
    intro hwake
    have hwake' : wakes = reply := Option.some.inj hwake
    omega
  · intro i hi
    exact absurd hi (by simp)

theorem inv_load (s : Exchange) (read : Bool) (reply : Nat) (h : s.Inv)
    (hhost : s.host = .woken read reply) :
    Inv { s with host := .loaded read (some reply) s.access.attStatus } := by
  obtain ⟨access, host, releasing, answered, wakes, accepted, finished⟩ := s
  obtain rfl : host = .woken read reply := hhost
  refine ⟨h.released, h.woken, h.returned, h.taken, h.host.1, ?_⟩
  intro i hi
  obtain rfl := Option.some.inj hi
  exact h.host.2

theorem inv_reset (s : Exchange) (read : Bool) (reply : Option Nat) (status : UInt8) (h : s.Inv)
    (hhost : s.host = .loaded read reply status) :
    Inv { s with
      access := { s.access with attStatus := BHD_GATTS_ACCESS_STATUS_NONE }
      host := .reset read reply status } := by
  obtain ⟨access, host, releasing, answered, wakes, accepted, finished⟩ := s
  obtain rfl : host = .loaded read reply status := hhost
  exact ⟨h.released, h.woken, h.returned, h.taken, ⟨h.host.1, rfl⟩, h.host.2⟩

theorem inv_measure (s : Exchange) (read : Bool) (reply : Option Nat) (status : UInt8) (h : s.Inv)
    (hhost : s.host = .reset read reply status) :
    Inv { s with host := .measured read reply status s.access.valueLen } := by
  obtain ⟨access, host, releasing, answered, wakes, accepted, finished⟩ := s
  obtain rfl : host = .reset read reply status := hhost
  exact ⟨h.released, h.woken, h.returned, h.taken, h.host.1, h.host.2⟩

theorem consumes_append (s : Exchange) (host : Phase) (done : Finished) (callback reply : Nat)
    (h : s.Consumes callback reply) :
    Consumes { s with host := host, finished := s.finished ++ [done] } callback reply := by
  obtain ⟨found, hfound, hconsumed⟩ := h
  obtain ⟨hbound, _⟩ := List.getElem?_eq_some_iff.mp hfound
  exact ⟨found, by simpa [List.getElem?_append_left hbound] using hfound, hconsumed⟩

theorem inv_finish (s : Exchange) (read : Bool) (reply : Option Nat) (status : UInt8) (len : Nat)
    (h : s.Inv) (hhost : s.host = .measured read reply status len) :
    Inv { s with
      host := .idle
      finished := s.finished ++ [⟨read, reply, status,
        if status = 0 ∧ read then some (s.access.value.take len) else none⟩] } := by
  obtain ⟨access, host, releasing, answered, wakes, accepted, finished⟩ := s
  obtain rfl : host = .measured read reply status len := hhost
  obtain ⟨hquiet, hcarries⟩ := h.host
  refine ⟨h.released, h.woken, ?_, ?_, hquiet⟩
  · intro callback done i hdone hconsumed
    rcases Nat.lt_trichotomy callback finished.length with hlt | heq | hgt
    · rw [List.getElem?_append_left hlt] at hdone
      exact h.returned callback done i hdone hconsumed
    · subst heq
      rw [List.getElem?_concat_length] at hdone
      obtain rfl := Option.some.inj hdone
      obtain ⟨entry, hentry, _, hpending, hstatus, hdata⟩ := hcarries i hconsumed
      refine ⟨entry, hentry, hpending, hstatus, ?_⟩
      intro hread hzero
      have hboth : status = 0 ∧ read = true := ⟨hzero, hread⟩
      simp only [hboth, and_self, ite_true]
      exact congrArg some hdata
    · rw [List.getElem?_eq_none (by simp; omega)] at hdone
      exact absurd hdone (by simp)
  · intro i entry hentry _
    by_cases htaken : reply = some i
    · obtain ⟨found, hfound, _, hpending, _⟩ := hcarries i htaken
      obtain rfl : found = entry := Option.some.inj (hfound.symm.trans hentry)
      exact ⟨finished.length, hpending, _, List.getElem?_concat_length, htaken⟩
    · obtain ⟨callback, hpending, hconsumes⟩ := h.taken i entry hentry htaken
      exact ⟨callback, hpending, consumes_append _ _ _ callback i hconsumes⟩

-- With no release outstanding and no token left, every earlier reply has been
-- taken, so the new one is the next that the waiting callback wakes up on.
theorem inv_accept (s : Exchange) (stored : Access) (read : Bool) (r : Reply) (h : s.Inv)
    (hreleasing : s.releasing = false) (hhost : s.host = .pending read)
    (hzero : s.access.sem = 0) (hstatus : stored.attStatus = r.attStatus)
    (hsem : stored.sem = s.access.sem) (hvalue : stored.value.take stored.valueLen = r.data) :
    Inv { s with
      access := stored
      releasing := true
      accepted := s.accepted ++ [⟨r, s.waiter⟩] } := by
  obtain ⟨access, host, releasing, answered, wakes, accepted, finished⟩ := s
  obtain rfl : host = .pending read := hhost
  obtain rfl : releasing = false := hreleasing
  have hreleased : answered = accepted.length := h.released
  have hwoken : wakes + access.sem = answered := h.woken
  have hzero' : access.sem = 0 := hzero
  have hall : wakes = accepted.length := by omega
  subst hall
  refine ⟨?_, ?_, ?_, ?_, Or.inr ?_⟩
  · simp [hreleased]
  · show accepted.length + stored.sem = answered
    rw [hsem]
    exact hwoken
  · intro callback done reply hdone hconsumed
    obtain ⟨entry, hentry, hgives⟩ := h.returned callback done reply hdone hconsumed
    obtain ⟨hbound, _⟩ := List.getElem?_eq_some_iff.mp hentry
    exact ⟨entry, by simpa [List.getElem?_append_left hbound] using hentry, hgives⟩
  · intro reply entry hentry hflight
    by_cases hlast : reply < accepted.length
    · rw [List.getElem?_append_left hlast] at hentry
      exact h.taken reply entry hentry hflight
    · obtain ⟨hbound, _⟩ := List.getElem?_eq_some_iff.mp hentry
      have hbound' : reply < accepted.length + 1 := by simpa using hbound
      have heq : accepted.length = reply := by omega
      exact absurd (congrArg some heq) hflight
  · exact ⟨⟨r, some finished.length⟩, List.getElem?_concat_length, by simp, rfl, hstatus, hvalue⟩

theorem inv_release (s : Exchange) (h : s.Inv) (hreleasing : s.releasing = true) :
    Inv { s with
      access := s.access.semRelease
      releasing := false
      answered := s.answered + 1 } := by
  obtain ⟨access, host, releasing, answered, wakes, accepted, finished⟩ := s
  obtain rfl : releasing = true := hreleasing
  have hwoken : wakes + access.sem = answered := h.woken
  refine ⟨h.released, ?_, h.returned, h.taken, h.host⟩
  show wakes + (access.sem + 1) = answered + 1
  omega

theorem inv_step (s : Exchange) (act : Act) (next : Exchange) (h : s.Inv) (ht : s.Timely act)
    (hstep : s.step act = some next) : next.Inv := by
  cases step_moves s act next hstep with
  | send read hhost => exact inv_send s read h hhost
  | wake read hhost hsem => exact inv_wake s read h hhost hsem
  | timeout read hhost hsem => exact inv_timeout s read h ht hhost hsem
  | load read reply hhost => exact inv_load s read reply h hhost
  | reset read reply status hhost => exact inv_reset s read reply status h hhost
  | measure read reply status hhost => exact inv_measure s read reply status h hhost
  | finish read reply status len hhost => exact inv_finish s read reply status len h hhost
  | accept r stored hreleasing hnone hstatus hsem hvalue =>
      obtain ⟨⟨read, hhost⟩, hzero⟩ := ht hnone
      exact inv_accept s stored read r h hreleasing hhost hzero hstatus hsem hvalue
  | refuse r => exact h
  | release hreleasing => exact inv_release s h hreleasing

theorem inFlight_carried (s : Exchange) (h : s.HostInv) (reply : Nat) (entry : Accepted)
    (hentry : s.accepted[reply]? = some entry) (hflight : s.inFlight = some reply) :
    entry.pending = some s.finished.length := by
  have hcarried : ∀ status len, s.Carries reply status len →
      entry.pending = some s.finished.length := by
    intro status len hcarries
    obtain ⟨found, hfound, _, hpending, _⟩ := hcarries
    obtain rfl : found = entry := Option.some.inj (hfound.symm.trans hentry)
    exact hpending
  obtain ⟨hbound, _⟩ := List.getElem?_eq_some_iff.mp hentry
  obtain ⟨access, host, releasing, answered, wakes, accepted, finished⟩ := s
  cases host with
  | idle => exact absurd hflight (by simp [inFlight])
  | pending read =>
      obtain rfl : wakes = reply := Option.some.inj hflight
      rcases h with hquiet | hcarries
      · exact absurd hquiet.1 (Nat.ne_of_lt hbound)
      · exact hcarried _ _ hcarries
  | woken read taken =>
      obtain rfl : taken = reply := Option.some.inj hflight
      exact hcarried _ _ h.2
  | loaded read taken status => exact hcarried _ _ (h.2 reply hflight)
  | reset read taken status => exact hcarried _ _ (h.2 reply hflight)
  | measured read taken status len => exact hcarried _ _ (h.2 reply hflight)

theorem inv_matched (s : Exchange) (h : s.Inv) : s.Matched where
  returned := h.returned
  consumed := by
    intro reply entry hentry
    have honly : ∀ callback other, entry.pending = some callback → s.Consumes other reply →
        other = callback := by
      intro callback other hpending hother
      obtain ⟨done, hdone, hconsumed⟩ := hother
      obtain ⟨found, hfound, hfoundPending, _⟩ := h.returned other done reply hdone hconsumed
      obtain rfl : found = entry := Option.some.inj (hfound.symm.trans hentry)
      exact Option.some.inj (hfoundPending.symm.trans hpending)
    by_cases hflight : s.inFlight = some reply
    · have hpending := inFlight_carried s h.host reply entry hentry hflight
      exact ⟨s.finished.length, hpending, Or.inr ⟨rfl, hflight⟩,
        fun other => honly _ other hpending⟩
    · obtain ⟨callback, hpending, hconsumes⟩ := h.taken reply entry hentry hflight
      exact ⟨callback, hpending, Or.inl hconsumes, fun other => honly _ other hpending⟩

-- In a run whose replies and time-outs are all timely, access replies and
-- attribute accesses match.
theorem run_matched (acts : List Act) (s : Exchange)
    (ht : Transition.Meets step Timely initial acts) (hrun : initial.run acts = some s) :
    s.Matched :=
  inv_matched s (Transition.run_invariant inv_step initial s acts inv_initial ht hrun)

def oneByteRead : Reply := ⟨0, [1], by decide⟩

theorem run_matched_read : ∃ s : Exchange, s.Matched ∧
    s.finished = [⟨true, some 0, 0, some [1]⟩] := by
  let acts : List Act :=
    [.send true, .reply oneByteRead, .release, .wake, .load, .reset, .measure, .finish]
  refine ⟨_, run_matched acts _ ?_ rfl, rfl⟩
  -- Only the reply has to be timely: it comes while the read is pending.
  apply Transition.meets_cons trivial rfl
  apply Transition.meets_cons (fun _ => ⟨⟨true, rfl⟩, rfl⟩) rfl
  repeat apply Transition.meets_cons trivial rfl
  exact trivial

-- A client that answers before any access is pending is told that its answer
-- was accepted, and the next read gives that answer at once.
theorem early_reply_not_matched : ∃ s : Exchange,
    initial.run [.reply oneByteRead, .release, .send true, .wake, .load, .reset, .measure,
      .finish] = some s ∧ s.host = .idle ∧ ¬s.Matched := by
  refine ⟨_, rfl, rfl, ?_⟩
  intro hmatched
  obtain ⟨callback, hpending, _⟩ := hmatched.consumed 0 ⟨oneByteRead, none⟩ rfl
  exact absurd hpending (by simp)

end Exchange

end Blehostd.Gatts
