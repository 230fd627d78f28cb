import Blehostd.Stream.Conservation

namespace Blehostd

open Framing (stream stream_nil stream_cons)

-- The payloads that blehostd_req_mq can hold.
def nonempty (payloads : List Mbuf) : List Mbuf :=
  payloads.filter fun payload => payload ≠ []

-- The payloads in front of the first empty one.
def leading (payloads : List Mbuf) : List Mbuf :=
  payloads.takeWhile fun payload => payload ≠ []

-- The payloads behind the first empty one.
def behind (payloads : List Mbuf) : List Mbuf :=
  (payloads.dropWhile fun payload => payload ≠ []).tail

@[simp] theorem nonempty_nil : nonempty [] = [] := rfl

@[simp] theorem leading_nil : leading [] = [] := rfl

@[simp] theorem behind_nil : behind [] = [] := rfl

@[simp] theorem nonempty_empty (rest : List Mbuf) : nonempty ([] :: rest) = nonempty rest := by
  simp [nonempty]

@[simp] theorem leading_empty (rest : List Mbuf) : leading ([] :: rest) = [] := by
  simp [leading]

@[simp] theorem behind_empty (rest : List Mbuf) : behind ([] :: rest) = rest := by
  simp [behind]

@[simp] theorem nonempty_cons {payload : Mbuf} (h : payload ≠ []) (rest : List Mbuf) :
    nonempty (payload :: rest) = payload :: nonempty rest := by
  simp [nonempty, h]

@[simp] theorem leading_cons {payload : Mbuf} (h : payload ≠ []) (rest : List Mbuf) :
    leading (payload :: rest) = payload :: leading rest := by
  simp [leading, h]

@[simp] theorem behind_cons {payload : Mbuf} (h : payload ≠ []) (rest : List Mbuf) :
    behind (payload :: rest) = behind rest := by
  simp [behind, h]

theorem nonempty_eq_nil_iff (payloads : List Mbuf) :
    nonempty payloads = [] ↔ ∀ payload ∈ payloads, payload = [] := by
  simp [nonempty]

-- What a reader without a known length has done with the payloads of its
-- buffer: those in front of an empty one are enqueued, the others stay.
structure Drained (payloads : List Mbuf) (r last : Reader) : Prop where
  reqMq : last.reqMq = r.reqMq ++ leading payloads
  packetLen : last.packetLen = 0
  buffered : last.buffered = stream lengthHeader (behind payloads)

-- Without bytes the call stops, and leaves the reader as it is.
theorem enqueueOne_nothing (alloc : Alloc) (r : Reader) (hlen : r.packetLen = 0)
    (hnone : r.buffered = []) : enqueueOne alloc r = (false, r) := by
  rw [enqueueOne, readLength_empty r hlen hnone]
  exact takePacket_short alloc r (Or.inl hlen)

-- The header of an empty payload is taken, and its length reads as none.
theorem enqueueOne_empty (alloc : Alloc) (r : Reader) (tail : Mbuf) (hlen : r.packetLen = 0)
    (hheader : r.buffered = lengthHeader 0 ++ tail) :
    enqueueOne alloc r = (false, { r with packet := some tail, packetLen := 0 }) := by
  rw [enqueueOne, readLength_header r 0 tail hlen (Nat.zero_le _) hheader]
  exact takePacket_short alloc _ (Or.inl rfl)

theorem enqueueOne_payload (r : Reader) (payload tail : Mbuf) (hlen : r.packetLen = 0)
    (hpayload : payload ≠ []) (hfits : payload.length ≤ BLEHOSTD_MAX_MSG_SZ)
    (hframe : r.buffered = lengthHeader payload.length ++ (payload ++ tail)) :
    ∃ next, enqueueOne Alloc.ok r = (true, next) ∧ next.reqMq = r.reqMq ++ [payload] ∧
      next.packetLen = 0 ∧ next.buffered = tail := by
  have hread := readLength_header r payload.length (payload ++ tail) hlen hfits hframe
  have hpos : 0 < payload.length := List.length_pos_iff.mpr hpayload
  rw [enqueueOne, hread]
  exact takePacket_full _ payload tail hpos rfl rfl

-- The read loop, by induction on the payloads: each one in front of an empty
-- one takes one more call.
theorem enqueueAll_drained (payloads : List Mbuf) (r : Reader)
    (hfits : ∀ payload ∈ payloads, payload.length ≤ BLEHOSTD_MAX_MSG_SZ)
    (hlen : r.packetLen = 0) (hstream : r.buffered = stream lengthHeader payloads) :
    Drained payloads r (enqueueAll (fun _ => Alloc.ok) r) := by
  induction payloads generalizing r with
  | nil =>
      rw [enqueueAll_false _ r r (enqueueOne_nothing _ r hlen hstream)]
      exact ⟨by simp, hlen, hstream⟩
  | cons payload rest ih =>
      rw [stream_cons] at hstream
      by_cases hpayload : payload = []
      · subst hpayload
        rw [enqueueAll_false _ r _ (enqueueOne_empty _ r (stream lengthHeader rest) hlen hstream)]
        exact ⟨by simp, rfl, by simp [Reader.buffered]⟩
      · obtain ⟨next, hcall, hqueue, hnone, htail⟩ := enqueueOne_payload r payload
          (stream lengthHeader rest) hlen hpayload (hfits payload (by simp)) hstream
        have hrest := ih next (fun other hother => hfits other (List.mem_cons_of_mem _ hother))
          hnone htail
        rw [enqueueAll_true _ r next hcall]
        refine ⟨?_, hrest.packetLen, ?_⟩
        · rw [hrest.reqMq, hqueue, leading_cons hpayload, List.append_assoc]
          rfl
        · rw [hrest.buffered, behind_cons hpayload]

theorem socketReadable_drained (payloads : List Mbuf) (r : Reader)
    (hfits : ∀ payload ∈ payloads, payload.length ≤ BLEHOSTD_MAX_MSG_SZ)
    (hlen : r.packetLen = 0) (hempty : r.buffered = []) :
    Drained payloads r
      (socketReadable (fun _ => Alloc.ok) (stream lengthHeader payloads) r) := by
  have hput : (r.put (stream lengthHeader payloads)).buffered = stream lengthHeader payloads := by
    rw [Reader.put, Reader.buffered, Option.getD_some, hempty, List.nil_append]
  rw [socketReadable_put]
  obtain ⟨hqueue, hnone, hrest⟩ :=
    enqueueAll_drained payloads (r.put (stream lengthHeader payloads)) hfits hlen hput
  exact ⟨hqueue, hnone, hrest⟩

-- All payloads that can be enqueued are, in their order, and none is still in
-- the buffer.
structure ReadsAll (payloads : List Mbuf) (r last : Reader) : Prop where
  reqMq : last.reqMq = r.reqMq ++ nonempty payloads
  waiting : last.packetLen = 0 ∧ ∃ later, last.buffered = stream lengthHeader later ∧
    nonempty later = []

-- No payload follows an empty one, but for other empty ones.
def EmptyLast (payloads : List Mbuf) : Prop :=
  payloads.Pairwise fun payload later => payload = [] → later = []

instance : DecidablePred EmptyLast :=
  fun payloads => inferInstanceAs (Decidable (payloads.Pairwise _))

theorem nonempty_split (payloads : List Mbuf) :
    nonempty payloads = leading payloads ++ nonempty (behind payloads) := by
  induction payloads with
  | nil => rfl
  | cons payload rest ih =>
      by_cases hpayload : payload = []
      · subst hpayload
        simp
      · rw [nonempty_cons hpayload, leading_cons hpayload, behind_cons hpayload, ih,
          List.cons_append]

theorem behind_empty_iff (payloads : List Mbuf) :
    nonempty (behind payloads) = [] ↔ EmptyLast payloads := by
  induction payloads with
  | nil => simp [EmptyLast]
  | cons payload rest ih =>
      rw [EmptyLast, List.pairwise_cons]
      by_cases hpayload : payload = []
      · subst hpayload
        rw [behind_empty, nonempty_eq_nil_iff]
        constructor
        · intro hall
          refine ⟨fun later hlater _ => hall later hlater, ?_⟩
          exact List.pairwise_of_forall_mem_list fun _ _ later hlater _ => hall later hlater
        · rintro ⟨hlater, -⟩ later hmem
          exact hlater later hmem rfl
      · rw [behind_cons hpayload, ih]
        exact ⟨fun h => ⟨fun _ _ hnil => absurd hnil hpayload, h⟩, fun h => h.2⟩

theorem readsAll_iff_emptyLast (payloads : List Mbuf) (r : Reader)
    (hfits : ∀ payload ∈ payloads, payload.length ≤ BLEHOSTD_MAX_MSG_SZ)
    (hlen : r.packetLen = 0) (hempty : r.buffered = []) :
    ReadsAll payloads r
      (socketReadable (fun _ => Alloc.ok) (stream lengthHeader payloads) r) ↔
      EmptyLast payloads := by
  have hdrained := socketReadable_drained payloads r hfits hlen hempty
  rw [← behind_empty_iff]
  constructor
  · rintro ⟨hqueue, -⟩
    rw [hdrained.reqMq, nonempty_split, List.append_right_inj, List.self_eq_append_right] at hqueue
    exact hqueue
  · intro hnone
    refine ⟨?_, hdrained.packetLen, behind payloads, hdrained.buffered, hnone⟩
    rw [hdrained.reqMq, nonempty_split, hnone, List.append_nil]

-- Two messages, and two empty frames behind them.
theorem readsAll_iff_emptyLast_two :
    ReadsAll [[7], [8, 9], [], []] Reader.initial
      (socketReadable (fun _ => Alloc.ok) (stream lengthHeader [[7], [8, 9], [], []])
        Reader.initial) ↔
      EmptyLast [[7], [8, 9], [], []] :=
  readsAll_iff_emptyLast _ _ (by decide) rfl rfl

-- The empty frame between two messages holds the second one back.
theorem empty_frame_holds_back :
    ¬ReadsAll [[7], [], [8]] Reader.initial
      (socketReadable (fun _ => Alloc.ok) (stream lengthHeader [[7], [], [8]]) Reader.initial) := by
  intro hall
  have hqueue := hall.reqMq
  rw [(socketReadable_drained [[7], [], [8]] Reader.initial (by decide) rfl rfl).reqMq] at hqueue
  exact absurd hqueue (by decide)

end Blehostd
