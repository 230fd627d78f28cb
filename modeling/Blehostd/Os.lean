import Mathlib.Data.Nat.Basic
import Mathlib.Data.List.Basic

namespace Blehostd

def SYS_ENOMEM : Int := -1
def SYS_EINVAL : Int := -2
def SYS_ENOENT : Int := -4
def SYS_ERANGE : Int := -10

def BLE_HS_EINVAL : Int := 3
def BLE_HS_ENOMEM : Int := 6

-- The host is little-endian: a 16-bit variable keeps its low byte first in memory.
def storeBytes16 (old : Nat) : List UInt8 → Nat
  | [] => old
  | [low] => old / 256 * 256 + low.toNat
  | low :: high :: _ => high.toNat * 256 + low.toNat

def ntohs (value : Nat) : Nat :=
  value % 256 * 256 + value / 256 % 256

-- An mbuf chain is the bytes it holds. The chain's blocks play no role here.
abbrev Mbuf := List UInt8

namespace Mbuf

def pktlen (om : Mbuf) : Nat :=
  om.length

-- os_mbuf_copydata writes the bytes that exist before it reports a chain that
-- is too short, so the copied bytes come back with either result.
def copydata (om : Mbuf) (off len : Nat) : Int × List UInt8 :=
  let copied := (om.drop off).take len
  (if copied.length = len then 0 else -1, copied)

-- os_mbuf_adj with a positive count trims the head of the chain.
def adj (om : Mbuf) (count : Nat) : Mbuf :=
  om.drop count

end Mbuf

end Blehostd
