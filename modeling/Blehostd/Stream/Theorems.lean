import Blehostd.Stream
import Blehostd.Library.Framing

namespace Blehostd

open Framing (stream stream_nil stream_cons stream_append split_of_append_eq)

-- The two length bytes a client puts before a message, high byte first.
def lengthHeader (n : Nat) : List UInt8 :=
  [UInt8.ofNat (n / 256), UInt8.ofNat n]

def receive (chunks : List Mbuf) (r : Reader) : Reader :=
  chunks.foldl (fun r om => socketReadable (fun _ => Alloc.ok) om r) r

def Delivered (messages chunks : List Mbuf) : Prop :=
  (receive chunks Reader.initial).reqMq = messages ∧
    (receive chunks Reader.initial).buffered = []

-- Some read ends between the two length bytes of a message of 256 bytes or
-- more, whose high length byte is not zero.
def SplitsLength (messages chunks : List Mbuf) : Prop :=
  ∃ done message later before after, messages = done ++ message :: later ∧
    chunks = before ++ after ∧ 256 ≤ message.length ∧
    before.flatten.length = (stream lengthHeader done).length + 1

theorem ntohs_bytes (high low : Nat) (hh : high < 256) (hl : low < 256) :
    ntohs (low * 256 + high) = high * 256 + low := by
  unfold ntohs
  omega

theorem ntohs_lengthHeader (n : Nat) (hn : n < 2 ^ 16) :
    ntohs (storeBytes16 0 (lengthHeader n)) = n := by
  simp only [lengthHeader, storeBytes16, UInt8.toNat_ofNat']
  rw [ntohs_bytes _ _ (Nat.mod_lt _ (by decide)) (Nat.mod_lt _ (by decide))]
  omega

theorem readLength_known (r : Reader) (h : r.packetLen ≠ 0) : readLength r = r := by
  simp [readLength, h]

theorem readLength_header (r : Reader) (n : Nat) (tail : Mbuf) (h : r.packetLen = 0)
    (hn : n ≤ BLEHOSTD_MAX_MSG_SZ) (hb : r.buffered = lengthHeader n ++ tail) :
    readLength r = { r with packet := some tail, packetLen := n } := by
  have hs := ntohs_lengthHeader n (by unfold BLEHOSTD_MAX_MSG_SZ at hn; omega)
  have hc : Mbuf.copydata r.buffered 0 2 = (0, lengthHeader n) := by
    rw [hb]
    simp [Mbuf.copydata, lengthHeader]
  have hd : Mbuf.adj r.buffered 2 = tail := by
    rw [hb]
    simp [Mbuf.adj, lengthHeader]
  simp only [readLength, h, hc, hs, hd, ite_true, Nat.not_lt.mpr hn, ite_false]

theorem readLength_empty (r : Reader) (h : r.packetLen = 0) (hb : r.buffered = []) :
    readLength r = r := by
  have hc : Mbuf.copydata r.buffered 0 2 = (-1, []) := by
    rw [hb]
    simp [Mbuf.copydata]
  simp [readLength, h, hc, storeBytes16]
  exact congrArg (Reader.mk r.packet · r.reqMq) h.symm

-- With one buffered byte the copy fails, but the byte already is in
-- blehostd_packet_len, in its low half.
theorem readLength_single (r : Reader) (byte : UInt8) (h : r.packetLen = 0)
    (hb : r.buffered = [byte]) : readLength r = { r with packetLen := byte.toNat } := by
  have hc : Mbuf.copydata r.buffered 0 2 = (-1, [byte]) := by
    rw [hb]
    simp [Mbuf.copydata]
  simp [readLength, h, hc, storeBytes16]

theorem takePacket_short (alloc : Alloc) (r : Reader)
    (h : r.packetLen = 0 ∨ r.buffered.length < r.packetLen) :
    takePacket alloc r = (false, r) :=
  if_pos h

theorem takePacket_full (r : Reader) (message tail : Mbuf) (hpos : 0 < message.length)
    (hl : r.packetLen = message.length) (hb : r.buffered = message ++ tail) :
    ∃ next, takePacket Alloc.ok r = (true, next) ∧ next.reqMq = r.reqMq ++ [message] ∧
      next.packetLen = 0 ∧ next.buffered = tail := by
  have hshort : ¬(r.packetLen = 0 ∨ r.buffered.pktlen < r.packetLen) := by
    simp only [hl, hb, Mbuf.pktlen, List.length_append]
    omega
  unfold takePacket
  rw [if_neg hshort]
  split_ifs with hexact hk ha
  · have ht : tail = [] := by
      apply List.length_eq_zero_iff.mp
      simp only [hl, hb, Mbuf.pktlen, List.length_append] at hexact
      omega
    subst tail
    exact ⟨_, rfl, by simp [hb], rfl, rfl⟩
  · simp [Alloc.ok] at hk
  · simp [Alloc.ok] at ha
  · have hd : r.buffered.drop r.packetLen = tail := by simp [hb, hl]
    exact ⟨_, rfl, by simp [hb, hl], rfl, hd⟩

-- Without a known length the buffer starts at a frame, with one at its payload.
def Aligned (todo : List Mbuf) (r : Reader) (unread : Mbuf) : Prop :=
  (r.packetLen = 0 ∧ r.buffered ++ unread = stream lengthHeader todo) ∨
    ∃ message rest, todo = message :: rest ∧ r.packetLen = message.length ∧
      r.buffered ++ unread = message ++ stream lengthHeader rest

-- What the read loop leaves behind when no length was split: too little for
-- one more packet.
def Settled (todo : List Mbuf) (r : Reader) (unread : Mbuf) : Prop :=
  (r.packetLen = 0 ∧ r.buffered ++ unread = stream lengthHeader todo ∧
      (r.buffered = [] ∨ r.buffered = [0])) ∨
    ∃ message rest, todo = message :: rest ∧ r.packetLen = message.length ∧
      r.buffered ++ unread = message ++ stream lengthHeader rest ∧
      r.buffered.length < message.length

def Fits (message : Mbuf) : Prop :=
  1 ≤ message.length ∧ message.length ≤ BLEHOSTD_MAX_MSG_SZ

instance : DecidablePred Fits := fun _ => inferInstanceAs (Decidable (_ ∧ _))

theorem takePacket_aligned (r : Reader) (message unread : Mbuf) (rest : List Mbuf)
    (hfit : Fits message) (hl : r.packetLen = message.length)
    (hb : r.buffered ++ unread = message ++ stream lengthHeader rest) :
    (∃ next, takePacket Alloc.ok r = (true, next) ∧ next.reqMq = r.reqMq ++ [message] ∧
      Aligned rest next unread) ∨
    (takePacket Alloc.ok r = (false, r) ∧ Settled (message :: rest) r unread) := by
  by_cases hlen : message.length ≤ r.buffered.length
  · obtain ⟨tail, ht, hu⟩ := split_of_append_eq hb hlen
    obtain ⟨next, he, hq, hz, hn⟩ := takePacket_full r message tail hfit.1 hl ht
    exact Or.inl ⟨next, he, hq, Or.inl ⟨hz, by rw [hn, hu]⟩⟩
  · have hshort : r.buffered.length < message.length := by omega
    exact Or.inr ⟨takePacket_short _ r (Or.inr (by omega)),
      Or.inr ⟨message, rest, rfl, hl, hb, hshort⟩⟩

-- One call on an aligned buffer takes the next message, or stops with too few
-- bytes, or meets a lone nonzero length byte.
theorem enqueueOne_aligned (todo : List Mbuf) (r : Reader) (unread : Mbuf)
    (hfit : ∀ message ∈ todo, Fits message) (h : Aligned todo r unread) :
    (∃ message rest next, todo = message :: rest ∧ enqueueOne Alloc.ok r = (true, next) ∧
      next.reqMq = r.reqMq ++ [message] ∧ Aligned rest next unread) ∨
    (∃ next, enqueueOne Alloc.ok r = (false, next) ∧ next.reqMq = r.reqMq ∧
      Settled todo next unread) ∨
    (∃ byte, r.packetLen = 0 ∧ r.buffered = [byte] ∧ byte ≠ 0) := by
  rcases h with ⟨hz, hb⟩ | ⟨message, rest, rfl, hl, hb⟩
  · match hbuf : r.buffered with
    | [] =>
        refine Or.inr (Or.inl ⟨r, ?_, rfl, Or.inl ⟨hz, hb, Or.inl hbuf⟩⟩)
        rw [enqueueOne, readLength_empty r hz hbuf, takePacket_short _ r (Or.inl hz)]
    | [byte] =>
        by_cases hbyte : byte = 0
        · subst byte
          have hr : readLength r = r := by
            rw [readLength_single r 0 hz hbuf]
            exact congrArg (Reader.mk r.packet · r.reqMq) hz.symm
          refine Or.inr (Or.inl ⟨r, ?_, rfl, Or.inl ⟨hz, hb, Or.inr hbuf⟩⟩)
          rw [enqueueOne, hr, takePacket_short _ r (Or.inl hz)]
        · exact Or.inr (Or.inr ⟨byte, hz, rfl, hbyte⟩)
    | high :: low :: tail =>
        cases todo with
        | nil => simp [hbuf] at hb
        | cons message rest =>
            have hm := hfit message (by simp)
            rw [stream_cons] at hb
            obtain ⟨payload, hp, hu⟩ := split_of_append_eq hb (by simp [hbuf, lengthHeader])
            have hr := readLength_header r message.length payload hz hm.2 hp
            rcases takePacket_aligned (readLength r) message unread rest hm (by rw [hr])
              (by rw [hr]; exact hu) with ⟨next, he, hq, ha⟩ | ⟨he, hs⟩
            · exact Or.inl ⟨message, rest, next, rfl, he, by rw [hq, hr], ha⟩
            · exact Or.inr (Or.inl ⟨_, he, by rw [hr], hs⟩)
  · have hm := hfit message (by simp)
    have hr := readLength_known r (by have := hm.1; omega)
    unfold enqueueOne
    rw [hr]
    rcases takePacket_aligned r message unread rest hm hl hb with ⟨next, he, hq, ha⟩ | ⟨he, hs⟩
    · exact Or.inl ⟨message, rest, next, rfl, he, hq, ha⟩
    · exact Or.inr (Or.inl ⟨r, he, rfl, hs⟩)

theorem enqueueAll_true (alloc : Nat → Alloc) (r next : Reader)
    (h : enqueueOne (alloc 0) r = (true, next)) :
    enqueueAll alloc r = enqueueAll (fun k => alloc (k + 1)) next := by
  rw [enqueueAll]
  split
  · rename_i he
    rw [h] at he
    cases he
    rfl
  · rename_i he
    simp [h] at he

theorem enqueueAll_false (alloc : Nat → Alloc) (r next : Reader)
    (h : enqueueOne (alloc 0) r = (false, next)) : enqueueAll alloc r = next := by
  rw [enqueueAll]
  split
  · rename_i he
    simp [h] at he
  · rename_i he
    rw [h] at he
    cases he
    rfl

-- A property that every call keeps holds when the read loop ends.
theorem enqueueAll_keeps (P : Reader → Prop)
    (hstep : ∀ alloc r, P r → P (enqueueOne alloc r).2)
    (alloc : Nat → Alloc) (r : Reader) (h : P r) : P (enqueueAll alloc r) := by
  induction alloc, r using enqueueAll.induct with
  | case1 alloc r next he ih =>
      rw [enqueueAll_true alloc r next he]
      apply ih
      simpa only [he] using hstep (alloc 0) r h
  | case2 alloc r next he =>
      rw [enqueueAll_false alloc r next he]
      simpa only [he] using hstep (alloc 0) r h

-- The reader has put a wrong packet on the queue, or is bound to: it holds a
-- length smaller than that of the message that comes next.
def Broken (messages : List Mbuf) (r : Reader) : Prop :=
  ∃ sent message later, messages = sent ++ message :: later ∧
    ((r.reqMq = sent ∧ 0 < r.packetLen ∧ r.packetLen < message.length) ∨
      ∃ packet packets, r.reqMq = sent ++ packet :: packets ∧ packet.length < message.length)

theorem Broken.reqMq_ne {messages : List Mbuf} {r : Reader} (h : Broken messages r) :
    r.reqMq ≠ messages := by
  obtain ⟨sent, message, later, rfl, ⟨hq, _⟩ | ⟨packet, packets, hq, hlt⟩⟩ := h
  · simp [hq]
  · intro he
    rw [hq] at he
    have hp : packet = message := (List.cons.inj (List.append_cancel_left he)).1
    rw [hp] at hlt
    omega

theorem Broken.takePacket {messages : List Mbuf} (alloc : Alloc) {r : Reader}
    (h : Broken messages r) : Broken messages (takePacket alloc r).2 := by
  obtain ⟨sent, message, later, rfl, ⟨hq, hpos, hlt⟩ | ⟨packet, packets, hq, hlt⟩⟩ := h
  · refine ⟨sent, message, later, rfl, ?_⟩
    unfold Blehostd.takePacket
    split_ifs with hshort hexact
    · exact Or.inl ⟨hq, hpos, hlt⟩
    · refine Or.inr ⟨r.buffered, [], by simp [hq], ?_⟩
      simp only [Mbuf.pktlen] at hexact
      omega
    · exact Or.inl ⟨hq, hpos, hlt⟩
    · exact Or.inl ⟨hq, hpos, hlt⟩
    · exact Or.inr ⟨r.buffered.take r.packetLen, [], by simp [hq],
        Nat.lt_of_le_of_lt (List.length_take_le _ _) hlt⟩
  · refine ⟨sent, message, later, rfl, Or.inr ?_⟩
    unfold Blehostd.takePacket
    split_ifs
    · exact ⟨packet, packets, hq, hlt⟩
    · exact ⟨packet, packets ++ [r.buffered], by simp [hq], hlt⟩
    · exact ⟨packet, packets, hq, hlt⟩
    · exact ⟨packet, packets, hq, hlt⟩
    · exact ⟨packet, packets ++ [r.buffered.take r.packetLen], by simp [hq], hlt⟩

theorem readLength_reqMq (r : Reader) : (readLength r).reqMq = r.reqMq := by
  unfold readLength
  dsimp only
  split_ifs <;> rfl

theorem Broken.readLength {messages : List Mbuf} {r : Reader} (h : Broken messages r) :
    Broken messages (readLength r) := by
  obtain ⟨sent, message, later, hm, ⟨hq, hpos, hlt⟩ | ⟨packet, packets, hq, hlt⟩⟩ := h
  · rw [readLength_known r (by omega)]
    exact ⟨sent, message, later, hm, Or.inl ⟨hq, hpos, hlt⟩⟩
  · exact ⟨sent, message, later, hm,
      Or.inr ⟨packet, packets, (readLength_reqMq r).trans hq, hlt⟩⟩

theorem Broken.enqueueAll {messages : List Mbuf} (alloc : Nat → Alloc) {r : Reader}
    (h : Broken messages r) : Broken messages (enqueueAll alloc r) :=
  enqueueAll_keeps (Broken messages) (fun alloc _ h => h.readLength.takePacket alloc) alloc r h

theorem Broken.socketReadable {messages : List Mbuf} (alloc : Nat → Alloc) (om : Mbuf)
    {r : Reader} (h : Broken messages r) : Broken messages (socketReadable alloc om r) := by
  unfold Blehostd.socketReadable
  cases r.packet with
  | none => exact Broken.enqueueAll alloc h
  | some packet => exact Broken.enqueueAll alloc h

theorem Broken.receive {messages : List Mbuf} (chunks : List Mbuf) {r : Reader}
    (h : Broken messages r) : Broken messages (receive chunks r) := by
  induction chunks generalizing r with
  | nil => exact h
  | cons om chunks ih => exact ih (h.socketReadable _ om)

-- `unread` starts at the second length byte of a message of 256 bytes or more.
def HalfLength (messages : List Mbuf) (unread : Mbuf) : Prop :=
  ∃ done message later, messages = done ++ message :: later ∧ 256 ≤ message.length ∧
    unread.length + 1 = (stream lengthHeader (message :: later)).length

theorem length_stream_cons (message : Mbuf) (later : List Mbuf) :
    (stream lengthHeader (message :: later)).length =
      2 + message.length + (stream lengthHeader later).length := by
  rw [stream_cons]
  simp only [List.length_append, lengthHeader, List.length_cons, List.length_nil]
  omega

theorem HalfLength.prepend {messages : List Mbuf} {unread : Mbuf} (first : List Mbuf)
    (h : HalfLength messages unread) : HalfLength (first ++ messages) unread := by
  obtain ⟨done, message, later, rfl, hlen, hu⟩ := h
  exact ⟨first ++ done, message, later, by simp, hlen, hu⟩

-- A cut that lies past `first` is a cut of what follows.
theorem HalfLength.of_append {first messages : List Mbuf} {unread : Mbuf}
    (h : HalfLength (first ++ messages) unread)
    (hu : unread.length ≤ (stream lengthHeader messages).length) : HalfLength messages unread := by
  obtain ⟨done, message, later, he, hlen, hcut⟩ := h
  rcases List.append_eq_append_iff.mp he with ⟨tail, -, hm⟩ | ⟨tail, -, hl⟩
  · exact ⟨tail, message, later, hm, hlen, hcut⟩
  · cases tail with
    | nil => exact ⟨[], message, later, by simpa using hl.symm, hlen, hcut⟩
    | cons head tail =>
        simp only [List.cons_append, List.cons.injEq] at hl
        obtain ⟨rfl, rfl⟩ := hl
        have hs := congrArg List.length (stream_append lengthHeader tail messages)
        rw [length_stream_cons, hs, List.length_append] at hcut
        omega

theorem Aligned.unread_le {todo : List Mbuf} {r : Reader} {unread : Mbuf}
    (h : Aligned todo r unread) : unread.length ≤ (stream lengthHeader todo).length := by
  rcases h with ⟨-, hb⟩ | ⟨message, rest, rfl, -, hb⟩
  · rw [← hb, List.length_append]
    omega
  · have hl := congrArg List.length hb
    simp only [List.length_append] at hl
    rw [length_stream_cons]
    omega

theorem Settled.aligned {todo : List Mbuf} {r : Reader} {unread : Mbuf}
    (h : Settled todo r unread) : Aligned todo r unread := by
  rcases h with ⟨hz, hb, -⟩ | ⟨message, rest, ht, hl, hb, -⟩
  · exact Or.inl ⟨hz, hb⟩
  · exact Or.inr ⟨message, rest, ht, hl, hb⟩

theorem Settled.of_nil {todo : List Mbuf} {r : Reader} (h : Settled todo r []) :
    todo = [] ∧ r.buffered = [] := by
  rcases h with ⟨-, hb, hs⟩ | ⟨message, rest, -, -, hb, hlt⟩
  · have hl := congrArg List.length hb
    cases todo with
    | nil => exact ⟨rfl, by simpa using hb⟩
    | cons message rest =>
        rw [length_stream_cons] at hl
        rcases hs with hs | hs <;>
          simp only [hs, List.append_nil, List.length_nil, List.length_singleton] at hl <;> omega
  · have hl := congrArg List.length hb
    simp only [List.length_append, List.length_nil] at hl
    omega

theorem lengthHeader_head (n : Nat) (hn : n ≤ BLEHOSTD_MAX_MSG_SZ) :
    UInt8.ofNat (n / 256) ≠ 0 ↔ 256 ≤ n := by
  unfold BLEHOSTD_MAX_MSG_SZ at hn
  rw [ne_eq, ← UInt8.toNat_inj, UInt8.toNat_ofNat']
  simp only [UInt8.toNat_zero]
  omega

theorem Settled.not_half {todo : List Mbuf} {r : Reader} {unread : Mbuf}
    (hfit : ∀ message ∈ todo, Fits message) (h : Settled todo r unread) :
    ¬HalfLength todo unread := by
  rintro ⟨done, message, later, rfl, hlen, hcut⟩
  rcases h with ⟨-, hb, hs⟩ | ⟨first, rest, ht, -, hb, hlt⟩
  · have hl := congrArg List.length hb
    rw [stream_append, List.length_append, List.length_append] at hl
    rcases hs with hs | hs
    · simp only [hs, List.length_nil] at hl
      omega
    · have hd : done = [] := by
        cases done with
        | nil => rfl
        | cons head tail =>
            simp only [hs, List.length_singleton, length_stream_cons] at hl hcut
            omega
      subst hd
      have hhead := congrArg List.head? hb
      simp only [hs, List.nil_append, stream_cons, lengthHeader, List.cons_append,
        List.head?_cons, Option.some.injEq] at hhead
      exact (lengthHeader_head message.length (hfit message (by simp)).2).mpr hlen hhead.symm
  · have hl := congrArg List.length hb
    simp only [List.length_append] at hl
    cases done with
    | nil =>
        simp only [List.nil_append, List.cons.injEq] at ht
        obtain ⟨rfl, rfl⟩ := ht
        rw [length_stream_cons] at hcut
        omega
    | cons head tail =>
        simp only [List.cons_append, List.cons.injEq] at ht
        obtain ⟨rfl, rfl⟩ := ht
        rw [stream_append, List.length_append] at hl
        omega

-- A lone nonzero length byte: the cut is a bad one, and the byte alone now
-- counts as the length.
theorem half_of_single (todo : List Mbuf) (r : Reader) (unread : Mbuf) (byte : UInt8)
    (hfit : ∀ message ∈ todo, Fits message) (h : Aligned todo r unread)
    (hz : r.packetLen = 0) (hbuf : r.buffered = [byte]) (hbyte : byte ≠ 0) :
    HalfLength todo unread ∧ Broken (r.reqMq ++ todo) (enqueueOne Alloc.ok r).2 := by
  rcases h with ⟨-, hb⟩ | ⟨message, rest, rfl, hl, -⟩
  · cases todo with
    | nil => simp [hbuf] at hb
    | cons message later =>
        have hm := hfit message (by simp)
        have hlen := congrArg List.length hb
        have hhead := congrArg List.head? hb
        simp only [hbuf, stream_cons, lengthHeader, List.cons_append, List.nil_append,
          List.head?_cons, Option.some.injEq] at hhead
        have hbig : 256 ≤ message.length :=
          (lengthHeader_head message.length hm.2).mp (hhead ▸ hbyte)
        refine ⟨⟨[], message, later, rfl, hbig, ?_⟩, ?_⟩
        · simp only [hbuf, List.length_append, List.length_singleton] at hlen
          omega
        · apply Broken.takePacket
          rw [readLength_single r byte hz hbuf]
          have hlt := byte.toNat_lt
          have hpos : byte.toNat ≠ 0 := fun h0 => hbyte (UInt8.toNat_inj.mp (by simpa using h0))
          exact ⟨r.reqMq, message, later, rfl,
            Or.inl ⟨rfl, Nat.pos_of_ne_zero hpos, by dsimp only; omega⟩⟩
  · have hm := hfit message (by simp)
    have := hm.1
    omega

-- The whole read loop: it settles, unless the chunk ended inside a length.
theorem enqueueAll_aligned (todo : List Mbuf) (r : Reader) (unread : Mbuf)
    (hfit : ∀ message ∈ todo, Fits message) (h : Aligned todo r unread) :
    (∃ done rest, todo = done ++ rest ∧
      (enqueueAll (fun _ => Alloc.ok) r).reqMq = r.reqMq ++ done ∧
      Settled rest (enqueueAll (fun _ => Alloc.ok) r) unread) ∨
    (HalfLength todo unread ∧
      Broken (r.reqMq ++ todo) (enqueueAll (fun _ => Alloc.ok) r)) := by
  induction hn : r.buffered.length using Nat.strong_induction_on generalizing todo r with
  | h n ih =>
    rcases enqueueOne_aligned todo r unread hfit h with
      ⟨message, rest, next, rfl, he, hq, ha⟩ | ⟨next, he, hq, hs⟩ | ⟨byte, hz, hbuf, hbyte⟩
    · rw [enqueueAll_true _ r next he]
      have hlt := enqueueOne_buffered_lt _ r next he
      rcases ih next.buffered.length (by omega) rest next
        (fun m hm => hfit m (List.mem_cons_of_mem _ hm)) ha rfl with
        ⟨done, rest, rfl, hd, hs⟩ | ⟨hh, hbr⟩
      · exact Or.inl ⟨message :: done, rest, rfl, by simp [hd, hq], hs⟩
      · refine Or.inr ⟨hh.prepend [message], ?_⟩
        simpa [hq] using hbr
    · rw [enqueueAll_false _ r next he]
      exact Or.inl ⟨[], todo, rfl, by simp [hq], hs⟩
    · obtain ⟨hh, hbr⟩ := half_of_single todo r unread byte hfit h hz hbuf hbyte
      refine Or.inr ⟨hh, ?_⟩
      match he : enqueueOne Alloc.ok r with
      | (true, next) =>
          rw [enqueueAll_true _ r next he]
          rw [he] at hbr
          exact Broken.enqueueAll _ hbr
      | (false, next) =>
          rw [enqueueAll_false _ r next he]
          rw [he] at hbr
          exact hbr

theorem socketReadable_aligned (todo : List Mbuf) (r : Reader) (om unread : Mbuf)
    (hfit : ∀ message ∈ todo, Fits message) (h : Aligned todo r (om ++ unread)) :
    (∃ done rest, todo = done ++ rest ∧
      (socketReadable (fun _ => Alloc.ok) om r).reqMq = r.reqMq ++ done ∧
      Settled rest (socketReadable (fun _ => Alloc.ok) om r) unread) ∨
    (HalfLength todo unread ∧
      Broken (r.reqMq ++ todo) (socketReadable (fun _ => Alloc.ok) om r)) := by
  have hnext : ∀ packet, r.buffered ++ om = packet →
      Aligned todo { r with packet := some packet } unread := by
    rintro packet rfl
    simpa only [Aligned, Reader.buffered, Option.getD_some, List.append_assoc] using h
  unfold socketReadable
  cases hp : r.packet with
  | none => exact enqueueAll_aligned todo _ unread hfit (hnext om (by simp [Reader.buffered, hp]))
  | some packet =>
      exact enqueueAll_aligned todo _ unread hfit
        (hnext (packet ++ om) (by simp [Reader.buffered, hp]))

-- Over a whole run: without a bad cut every message arrives, and a bad cut
-- breaks the reader for good.
theorem receive_aligned (chunks todo : List Mbuf) (r : Reader)
    (hfit : ∀ message ∈ todo, Fits message) (h : Settled todo r chunks.flatten) :
    ((receive chunks r).reqMq = r.reqMq ++ todo ∧ (receive chunks r).buffered = [] ∧
      ∀ before after, chunks = before ++ after → ¬HalfLength todo after.flatten) ∨
    ((∃ before after, chunks = before ++ after ∧ HalfLength todo after.flatten) ∧
      Broken (r.reqMq ++ todo) (receive chunks r)) := by
  induction chunks generalizing todo r with
  | nil =>
      obtain ⟨rfl, hb⟩ := h.of_nil
      refine Or.inl ⟨(List.append_nil r.reqMq).symm, hb, ?_⟩
      rintro before after hc ⟨done, message, later, hm, -⟩
      have hl := congrArg List.length hm
      simp only [List.length_append, List.length_cons, List.length_nil] at hl
      omega
  | cons om chunks ih =>
      have hhere := h.not_half hfit
      rcases socketReadable_aligned todo r om chunks.flatten hfit h.aligned with
        ⟨done, rest, rfl, hq, hs⟩ | ⟨hh, hbr⟩
      · have hrest : ∀ message ∈ rest, Fits message :=
          fun m hm => hfit m (List.mem_append_right _ hm)
        have hfinal : receive (om :: chunks) r =
            receive chunks (socketReadable (fun _ => Alloc.ok) om r) := rfl
        rcases ih rest _ hrest hs with ⟨hd, hb, hno⟩ | ⟨⟨before, after, rfl, hh⟩, hbr⟩
        · refine Or.inl ⟨by rw [hfinal, hd, hq, List.append_assoc], by rw [hfinal, hb], ?_⟩
          intro before after hc hh
          cases before with
          | nil =>
              obtain rfl : om :: chunks = after := hc
              exact hhere hh
          | cons first before =>
              obtain rfl : chunks = before ++ after := (List.cons.inj hc).2
              have hle := hs.aligned.unread_le
              simp only [List.flatten_append, List.length_append] at hle
              exact hno before after rfl (hh.of_append (by omega))
        · refine Or.inr ⟨⟨om :: before, after, rfl, hh.prepend done⟩, ?_⟩
          rw [hfinal]
          simpa only [hq, List.append_assoc] using hbr
      · exact Or.inr ⟨⟨[om], chunks, rfl, hh⟩, hbr.receive chunks⟩

theorem splitsLength_iff_halfLength (messages chunks : List Mbuf)
    (hcut : chunks.flatten = stream lengthHeader messages) :
    SplitsLength messages chunks ↔
      ∃ before after, chunks = before ++ after ∧ HalfLength messages after.flatten := by
  have hpos : ∀ done message later (before after : List Mbuf),
      messages = done ++ message :: later → chunks = before ++ after →
      (before.flatten.length = (stream lengthHeader done).length + 1 ↔
        after.flatten.length + 1 = (stream lengthHeader (message :: later)).length) := by
    rintro done message later before after rfl rfl
    have hl := congrArg List.length hcut
    rw [stream_append, List.flatten_append, List.length_append, List.length_append] at hl
    omega
  constructor
  · rintro ⟨done, message, later, before, after, hm, hc, hlen, hb⟩
    exact ⟨before, after, hc, done, message, later, hm, hlen,
      (hpos done message later before after hm hc).mp hb⟩
  · rintro ⟨before, after, hc, done, message, later, hm, hlen, ha⟩
    exact ⟨done, message, later, before, after, hm, hc, hlen,
      (hpos done message later before after hm hc).mpr ha⟩

theorem receive_initial (messages chunks : List Mbuf) (hfit : ∀ message ∈ messages, Fits message)
    (hcut : chunks.flatten = stream lengthHeader messages) :
    (Delivered messages chunks ∧ ¬SplitsLength messages chunks) ∨
    (SplitsLength messages chunks ∧ Broken messages (receive chunks Reader.initial)) := by
  rw [splitsLength_iff_halfLength messages chunks hcut]
  rcases receive_aligned chunks messages Reader.initial hfit
    (Or.inl ⟨rfl, hcut, Or.inl rfl⟩) with ⟨hq, hb, hno⟩ | ⟨hh, hbr⟩
  · exact Or.inl ⟨⟨hq, hb⟩, fun ⟨before, after, hc, hh⟩ => hno before after hc hh⟩
  · exact Or.inr ⟨hh, hbr⟩

-- The messages arrive as sent exactly when no read splits a length that has a
-- nonzero high byte.
theorem delivered_iff_not_splitsLength (messages chunks : List Mbuf)
    (hfit : ∀ message ∈ messages, Fits message)
    (hcut : chunks.flatten = stream lengthHeader messages) :
    Delivered messages chunks ↔ ¬SplitsLength messages chunks := by
  rcases receive_initial messages chunks hfit hcut with ⟨hd, hn⟩ | ⟨hs, hbr⟩
  · exact iff_of_true hd hn
  · exact iff_of_false (fun hd => hbr.reqMq_ne hd.1) (fun hn => hn hs)

-- Two messages in one read, the second cut between its length bytes.
theorem delivered_iff_not_splitsLength_small :
    Delivered [[7], [8, 9]] [[0, 1, 7, 0], [2, 8], [9]] ↔
      ¬SplitsLength [[7], [8, 9]] [[0, 1, 7, 0], [2, 8], [9]] :=
  delivered_iff_not_splitsLength _ _ (by decide) (by decide)

theorem not_delivered_of_256 (message : Mbuf) (hlen : message.length = 256) :
    Fits message ∧ [[1], 0 :: message].flatten = stream lengthHeader [message] ∧
      ¬Delivered [message] [[1], 0 :: message] := by
  have hfit : Fits message := by
    simp only [Fits, hlen]
    decide
  have hcut : [[1], 0 :: message].flatten = stream lengthHeader [message] := by
    simp [stream_cons, lengthHeader, hlen]
  refine ⟨hfit, hcut, ?_⟩
  rcases receive_initial [message] [[1], 0 :: message] (by simpa) hcut with ⟨-, hn⟩ | ⟨-, hbr⟩
  · exact False.elim
      (hn ⟨[], message, [], [[1]], [0 :: message], rfl, rfl, Nat.le_of_eq hlen.symm, rfl⟩)
  · exact fun hd => hbr.reqMq_ne hd.1

-- A message of 256 bytes whose first length byte arrives alone.
theorem split_length_not_delivered :
    Fits (List.replicate 256 0) ∧
      [[1], 0 :: List.replicate 256 0].flatten = stream lengthHeader [List.replicate 256 0] ∧
      ¬Delivered [List.replicate 256 0] [[1], 0 :: List.replicate 256 0] :=
  not_delivered_of_256 _ List.length_replicate

end Blehostd
