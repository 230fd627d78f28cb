import Mathlib.Algebra.Order.Ring.Nat
import Blehostd.Os

namespace Blehostd

def BLEHOSTD_MAX_MSG_SZ : Nat := 10240

-- blehostd_packet, blehostd_packet_len and the packets put on blehostd_req_mq.
structure Reader where
  packet : Option Mbuf
  packetLen : Nat
  reqMq : List Mbuf
deriving DecidableEq, Repr

namespace Reader

def initial : Reader := ⟨none, 0, []⟩

-- The buffered bytes. os_mbuf_copydata finds none in a NULL chain.
def buffered (r : Reader) : Mbuf :=
  r.packet.getD []

end Reader

-- The answers of os_msys_get_pkthdr and os_mbuf_appendfrom during one call.
structure Alloc where
  getPkthdr : Bool
  appendfrom : Bool

def Alloc.ok : Alloc := ⟨true, true⟩

-- The first part of blehostd_enqueue_one learns the length when none is known.
-- The copied bytes land in blehostd_packet_len itself, also when there are
-- fewer than two of them.
def readLength (r : Reader) : Reader :=
  if r.packetLen = 0 then
    let copied := r.buffered.copydata 0 2
    let len := storeBytes16 r.packetLen copied.2
    if copied.1 = 0 then
      if BLEHOSTD_MAX_MSG_SZ < ntohs len then
        { r with packetLen := r.buffered.pktlen % 2 ^ 16 }
      else
        { r with packet := some (r.buffered.adj 2), packetLen := ntohs len }
    else
      { r with packetLen := len }
  else r

-- The second part moves one whole packet to blehostd_req_mq, or returns 0.
def takePacket (alloc : Alloc) (r : Reader) : Bool × Reader :=
  if r.packetLen = 0 ∨ r.buffered.pktlen < r.packetLen then
    (false, r)
  else if r.buffered.pktlen = r.packetLen then
    (true, ⟨none, 0, r.reqMq ++ [r.buffered]⟩)
  else if alloc.getPkthdr = false then
    (false, r)
  else if alloc.appendfrom = false then
    (false, r)
  else
    (true, ⟨some (r.buffered.adj r.packetLen), 0, r.reqMq ++ [r.buffered.take r.packetLen]⟩)

def enqueueOne (alloc : Alloc) (r : Reader) : Bool × Reader :=
  takePacket alloc (readLength r)

theorem readLength_buffered_le (r : Reader) :
    (readLength r).buffered.length ≤ r.buffered.length := by
  unfold readLength
  dsimp only
  split_ifs
  · exact Nat.le_refl _
  · simp [Reader.buffered, Mbuf.adj]
  · exact Nat.le_refl _
  · exact Nat.le_refl _

-- Every enqueued packet takes at least one byte, so the read loop ends.
theorem takePacket_buffered_lt (alloc : Alloc) (r next : Reader)
    (h : takePacket alloc r = (true, next)) : next.buffered.length < r.buffered.length := by
  unfold takePacket at h
  split_ifs at h with hshort hexact
  · simp at h
  · obtain rfl : _ = next := (Prod.mk.inj h).2
    simp only [Mbuf.pktlen] at hshort hexact
    simp only [Reader.buffered, Option.getD_none, List.length_nil] at *
    omega
  · simp at h
  · simp at h
  · obtain rfl : _ = next := (Prod.mk.inj h).2
    simp only [Mbuf.pktlen] at hshort hexact
    simp only [Reader.buffered, Option.getD_some, Mbuf.adj, List.length_drop] at *
    omega

theorem enqueueOne_buffered_lt (alloc : Alloc) (r next : Reader)
    (h : enqueueOne alloc r = (true, next)) : next.buffered.length < r.buffered.length :=
  Nat.lt_of_lt_of_le (takePacket_buffered_lt alloc _ next h) (readLength_buffered_le r)

-- The loop of blehostd_socket_readable; call number `k` of it sees `alloc k`.
def enqueueAll (alloc : Nat → Alloc) (r : Reader) : Reader :=
  match h : enqueueOne (alloc 0) r with
  | (true, next) => enqueueAll (fun k => alloc (k + 1)) next
  | (false, next) => next
termination_by r.buffered.length
decreasing_by exact enqueueOne_buffered_lt (alloc 0) r next h

def socketReadable (alloc : Nat → Alloc) (om : Mbuf) (r : Reader) : Reader :=
  match r.packet with
  | none => enqueueAll alloc { r with packet := some om }
  | some packet => enqueueAll alloc { r with packet := some (packet ++ om) }

end Blehostd
