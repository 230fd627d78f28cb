import Blehostd.Stream.Theorems
import Mathlib.Data.List.Induction

namespace Blehostd

-- A chunk that blehostd_socket_readable has read, and one call of
-- blehostd_enqueue_one.
inductive StreamEvent where
  | read (om : Mbuf)
  | call (alloc : Alloc)

namespace Reader

def put (r : Reader) (om : Mbuf) : Reader :=
  { r with packet := some (r.buffered ++ om) }

def step (r : Reader) : StreamEvent → Reader
  | .read om => r.put om
  | .call alloc => (enqueueOne alloc r).2

def run (r : Reader) (events : List StreamEvent) : Reader :=
  events.foldl step r

end Reader

def StreamEvent.bytes : StreamEvent → List UInt8
  | .read om => om
  | .call _ => []

def received (events : List StreamEvent) : List UInt8 :=
  events.flatMap StreamEvent.bytes

-- What has left the buffer: the two bytes of a length, or a packet.
inductive Piece where
  | header (first second : UInt8)
  | packet (om : {om : Mbuf // om ≠ []})

namespace Piece

def bytes : Piece → List UInt8
  | header first second => [first, second]
  | packet om => om

def enqueued : Piece → Option Mbuf
  | header _ _ => none
  | packet om => some om

end Piece

-- The bytes received so far are those that have left the buffer and those that
-- are still in it, and the packets among the former are the enqueued ones.
def Accounted (bytes : List UInt8) (r : Reader) : Prop :=
  ∃ pieces : List Piece, bytes = pieces.flatMap Piece.bytes ++ r.buffered ∧
    pieces.filterMap Piece.enqueued = r.reqMq

-- All that the first part can do to the buffer.
theorem readLength_cases (r : Reader) :
    (readLength r).buffered = r.buffered ∨
      r.packetLen = 0 ∧
        ∃ first second, r.buffered = first :: second :: (readLength r).buffered := by
  unfold readLength
  dsimp only
  split_ifs with hlen hcopied hlarge
  · exact Or.inl rfl
  · refine Or.inr ⟨hlen, ?_⟩
    match hbuffered : r.buffered with
    | [] =>
        rw [hbuffered] at hcopied
        exact absurd hcopied (by decide)
    | [_] =>
        rw [hbuffered] at hcopied
        exact absurd hcopied (by simp [Mbuf.copydata])
    | first :: second :: rest => exact ⟨first, second, rfl⟩
  · exact Or.inl rfl
  · exact Or.inl rfl

-- All that the second part can do: nothing, or one whole packet goes.
theorem takePacket_cases (alloc : Alloc) (r : Reader) :
    takePacket alloc r = (false, r) ∨
      ∃ next, takePacket alloc r = (true, next) ∧ r.packetLen ≠ 0 ∧
        r.packetLen ≤ r.buffered.length ∧
        r.buffered = r.buffered.take r.packetLen ++ next.buffered ∧
        next.reqMq = r.reqMq ++ [r.buffered.take r.packetLen] := by
  unfold takePacket
  split_ifs with hshort hexact hpkthdr happend
  · exact Or.inl rfl
  · have hwhole : r.buffered.take r.packetLen = r.buffered :=
      List.take_of_length_le (Nat.le_of_eq hexact)
    refine Or.inr ⟨_, rfl, by omega, Nat.le_of_eq hexact.symm, ?_, ?_⟩
    · rw [hwhole]
      exact (List.append_nil _).symm
    · rw [hwhole]
  · exact Or.inl rfl
  · exact Or.inl rfl
  · unfold Mbuf.pktlen at hshort
    exact Or.inr ⟨_, rfl, by omega, by omega, (List.take_append_drop _ _).symm, rfl⟩

theorem Accounted.put {bytes : List UInt8} {r : Reader} (h : Accounted bytes r) (om : Mbuf) :
    Accounted (bytes ++ om) (r.put om) := by
  obtain ⟨pieces, hbytes, hqueue⟩ := h
  refine ⟨pieces, ?_, hqueue⟩
  rw [hbytes, List.append_assoc]
  rfl

theorem Accounted.readLength {bytes : List UInt8} {r : Reader} (h : Accounted bytes r) :
    Accounted bytes (readLength r) := by
  obtain ⟨pieces, hbytes, hqueue⟩ := h
  rcases readLength_cases r with hsame | ⟨-, first, second, hheader⟩
  · exact ⟨pieces, by rw [hsame, hbytes], by rw [readLength_reqMq, hqueue]⟩
  · refine ⟨pieces ++ [.header first second], ?_, ?_⟩
    · rw [hbytes, hheader]
      simp [Piece.bytes]
    · rw [readLength_reqMq, ← hqueue]
      simp [Piece.enqueued]

theorem Accounted.takePacket {bytes : List UInt8} {r : Reader} (h : Accounted bytes r)
    (alloc : Alloc) : Accounted bytes (takePacket alloc r).2 := by
  rcases takePacket_cases alloc r with hsame | ⟨next, hnext, hpos, hfits, hsplit, hmq⟩
  · rw [hsame]
    exact h
  · obtain ⟨pieces, hbytes, hqueue⟩ := h
    have hnonempty : r.buffered.take r.packetLen ≠ [] := by
      apply List.ne_nil_of_length_pos
      rw [List.length_take]
      omega
    rw [hnext]
    refine ⟨pieces ++ [.packet ⟨_, hnonempty⟩], ?_, ?_⟩
    · rw [hbytes, List.flatMap_append, List.append_assoc]
      congr 1
      simpa [Piece.bytes] using hsplit
    · rw [hmq, ← hqueue]
      simp [Piece.enqueued]

theorem Accounted.step {bytes : List UInt8} {r : Reader} (h : Accounted bytes r)
    (event : StreamEvent) : Accounted (bytes ++ event.bytes) (r.step event) := by
  cases event with
  | read om => exact h.put om
  | call alloc =>
      rw [StreamEvent.bytes, List.append_nil]
      exact h.readLength.takePacket alloc

theorem run_accounted (events : List StreamEvent) :
    Accounted (received events) (Reader.initial.run events) := by
  induction events using List.reverseRecOn with
  | nil => exact ⟨[], rfl, rfl⟩
  | append_singleton events event ih =>
      have hstep := ih.step event
      simpa [received, Reader.run] using hstep

-- The call finds more than one whole packet in the buffer and gets no mbuf for
-- the packet.
def AllocFails (alloc : Alloc) (r : Reader) : Prop :=
  (readLength r).packetLen ≠ 0 ∧ (readLength r).packetLen < (readLength r).buffered.length ∧
    alloc ≠ Alloc.ok

-- The packet that the reader would take next.
def Reader.nextPacket (r : Reader) : Mbuf :=
  r.buffered.take r.packetLen

-- What a call without an mbuf leaves: at most the header of the packet is gone.
structure Keeps (r next : Reader) : Prop where
  reqMq : next.reqMq = r.reqMq
  buffered : next.buffered = r.buffered ∨
    r.packetLen = 0 ∧ ∃ first second, r.buffered = first :: second :: next.buffered
  learned : r.packetLen ≠ 0 → next = r
  waiting : next.packetLen ≠ 0 ∧ next.packetLen < next.buffered.length

theorem Alloc.ne_ok {alloc : Alloc} (h : alloc ≠ Alloc.ok) :
    alloc.getPkthdr = false ∨ alloc.appendfrom = false := by
  obtain ⟨getPkthdr, appendfrom⟩ := alloc
  cases getPkthdr with
  | false => exact Or.inl rfl
  | true =>
      cases appendfrom with
      | false => exact Or.inr rfl
      | true => exact absurd rfl h

theorem takePacket_fails (alloc : Alloc) (r : Reader) (hpos : r.packetLen ≠ 0)
    (hmore : r.packetLen < r.buffered.length) (h : alloc ≠ Alloc.ok) :
    takePacket alloc r = (false, r) := by
  have hshort : ¬(r.packetLen = 0 ∨ r.buffered.length < r.packetLen) := by omega
  have hexact : ¬r.buffered.length = r.packetLen := by omega
  unfold takePacket
  simp only [Mbuf.pktlen, hshort, hexact, if_false]
  rcases Alloc.ne_ok h with hpkthdr | happend
  · simp only [hpkthdr, if_true]
  · simp only [happend, if_true, ite_self]

theorem enqueueOne_fails (alloc : Alloc) (r : Reader) (h : AllocFails alloc r) :
    enqueueOne alloc r = (false, readLength r) :=
  takePacket_fails alloc (readLength r) h.1 h.2.1 h.2.2

theorem readLength_keeps (alloc : Alloc) (r : Reader) (h : AllocFails alloc r) :
    Keeps r (readLength r) where
  reqMq := readLength_reqMq r
  buffered := readLength_cases r
  learned := readLength_known r
  waiting := ⟨h.1, h.2.1⟩

-- The packet is known and lies in the buffer with more bytes behind it.
structure Waiting (queue : List Mbuf) (packet : Mbuf) (r : Reader) : Prop where
  reqMq : r.reqMq = queue
  known : r.packetLen ≠ 0 ∧ r.packetLen < r.buffered.length
  next : r.nextPacket = packet

theorem Waiting.step {queue : List Mbuf} {packet : Mbuf} {r : Reader} (h : Waiting queue packet r)
    (event : StreamEvent) (hfails : ∀ alloc, event = .call alloc → alloc ≠ Alloc.ok) :
    Waiting queue packet (r.step event) := by
  obtain ⟨hpos, hmore⟩ := h.known
  cases event with
  | read om =>
      refine ⟨h.reqMq, ⟨hpos, ?_⟩, ?_⟩
      · show r.packetLen < (r.buffered ++ om).length
        rw [List.length_append]
        omega
      · rw [← h.next]
        exact List.take_append_of_le_length (Nat.le_of_lt hmore)
  | call alloc =>
      have hcall : enqueueOne alloc r = (false, r) := by
        unfold enqueueOne
        rw [readLength_known r hpos]
        exact takePacket_fails alloc r hpos hmore (hfails alloc rfl)
      rw [Reader.step, hcall]
      exact h

theorem Waiting.run {queue : List Mbuf} {packet : Mbuf} {r : Reader} (h : Waiting queue packet r)
    (events : List StreamEvent)
    (hfails : ∀ alloc, StreamEvent.call alloc ∈ events → alloc ≠ Alloc.ok) :
    Waiting queue packet (r.run events) := by
  induction events generalizing r with
  | nil => exact h
  | cons event rest ih =>
      have hfirst := h.step event fun alloc he => hfails alloc (by simp [he])
      exact ih hfirst fun alloc hmem => hfails alloc (List.mem_cons_of_mem event hmem)

-- With an mbuf the packet is the next one in the queue.
theorem Waiting.enqueued {queue : List Mbuf} {packet : Mbuf} {r : Reader}
    (h : Waiting queue packet r) :
    ∃ next, enqueueOne Alloc.ok r = (true, next) ∧ next.reqMq = queue ++ [packet] := by
  obtain ⟨hpos, hmore⟩ := h.known
  have hlength : r.nextPacket.length = r.packetLen := by
    rw [Reader.nextPacket, List.length_take]
    omega
  obtain ⟨next, hnext, hmq, -, -⟩ := takePacket_full r r.nextPacket (r.buffered.drop r.packetLen)
    (by omega) hlength.symm (List.take_append_drop _ _).symm
  refine ⟨next, ?_, ?_⟩
  · unfold enqueueOne
    rw [readLength_known r hpos]
    exact hnext
  · rw [hmq, h.reqMq, h.next]

-- The calls of one loop, call number k with the answers `alloc k`.
def calls (alloc : Nat → Alloc) (n : Nat) : List StreamEvent :=
  (List.range n).map fun k => .call (alloc k)

theorem calls_succ (alloc : Nat → Alloc) (n : Nat) :
    calls alloc (n + 1) = .call (alloc 0) :: calls (fun k => alloc (k + 1)) n := by
  simp [calls, List.range_succ_eq_map]

-- The loop makes n + 1 calls. All but the last one have enqueued a packet.
def Drains (alloc : Nat → Alloc) (r last : Reader) : Prop :=
  ∃ n ≤ r.buffered.length, last = r.run (calls alloc (n + 1)) ∧
    (∀ k < n, (enqueueOne (alloc k) (r.run (calls alloc k))).1 = true) ∧
    (enqueueOne (alloc n) (r.run (calls alloc n))).1 = false

theorem enqueueAll_drains (alloc : Nat → Alloc) (r : Reader) :
    Drains alloc r (enqueueAll alloc r) := by
  induction alloc, r using enqueueAll.induct with
  | case1 alloc r next he ih =>
      obtain ⟨n, hn, hlast, hmade, hended⟩ := ih
      have hlt := enqueueOne_buffered_lt (alloc 0) r next he
      have hrun : ∀ k, r.run (calls alloc (k + 1)) =
          next.run (calls (fun k => alloc (k + 1)) k) := by
        intro k
        rw [calls_succ, Reader.run, List.foldl_cons, Reader.step, he]
        rfl
      refine ⟨n + 1, by omega, ?_, ?_, ?_⟩
      · rw [enqueueAll_true alloc r next he, hlast, hrun]
      · intro k hk
        cases k with
        | zero => exact congrArg Prod.fst he
        | succ k =>
            rw [hrun]
            exact hmade k (by omega)
      · rw [hrun]
        exact hended
  | case2 alloc r next he =>
      refine ⟨0, Nat.zero_le _, ?_, ?_, congrArg Prod.fst he⟩
      · rw [enqueueAll_false alloc r next he]
        exact (congrArg Prod.snd he).symm
      · intro k hk
        exact absurd hk (Nat.not_lt_zero k)

theorem socketReadable_put (alloc : Nat → Alloc) (om : Mbuf) (r : Reader) :
    socketReadable alloc om r = enqueueAll alloc (r.put om) := by
  unfold socketReadable Reader.put Reader.buffered
  cases r.packet <;> rfl

theorem stream_conserved :
    (∀ events, Accounted (received events) (Reader.initial.run events)) ∧
    (∀ alloc r, AllocFails alloc r → ∃ next, enqueueOne alloc r = (false, next) ∧ Keeps r next ∧
      ∀ later, (∀ other, StreamEvent.call other ∈ later → other ≠ Alloc.ok) →
        ∃ last, enqueueOne Alloc.ok (next.run later) = (true, last) ∧
          last.reqMq = r.reqMq ++ [next.nextPacket]) ∧
    ∀ alloc om r, Drains alloc (r.put om) (socketReadable alloc om r) := by
  refine ⟨run_accounted, ?_, ?_⟩
  · intro alloc r hfails
    have hkeeps := readLength_keeps alloc r hfails
    refine ⟨readLength r, enqueueOne_fails alloc r hfails, hkeeps, ?_⟩
    intro later hlater
    have hwaiting : Waiting r.reqMq (readLength r).nextPacket (readLength r) :=
      ⟨hkeeps.reqMq, hkeeps.waiting, rfl⟩
    exact (hwaiting.run later hlater).enqueued
  · intro alloc om r
    rw [socketReadable_put]
    exact enqueueAll_drains alloc (r.put om)

-- A packet of one byte with another byte behind it. There is no mbuf for it at
-- the first call, nor at the second.
theorem stream_conserved_retry : ∃ next last,
    enqueueOne ⟨false, true⟩ (Reader.initial.put [0, 1, 65, 66]) = (false, next) ∧
    enqueueOne Alloc.ok (next.run [.read [67], .call ⟨true, false⟩]) = (true, last) ∧
    last.reqMq = [next.nextPacket] := by
  have hfails : AllocFails ⟨false, true⟩ (Reader.initial.put [0, 1, 65, 66]) :=
    ⟨by decide, by decide, by simp [Alloc.ok]⟩
  obtain ⟨next, hnext, -, hlater⟩ := stream_conserved.2.1 _ _ hfails
  obtain ⟨last, hlast, hmq⟩ := hlater [.read [67], .call ⟨true, false⟩] (by simp [Alloc.ok])
  exact ⟨next, last, hnext, hlast, hmq⟩

end Blehostd
