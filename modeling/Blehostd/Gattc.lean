import Blehostd.Gap
import Blehostd.Library.Heap

namespace Blehostd

-- bhd_gattc_disc_chr_arg and bhd_gattc_disc_dsc_arg, with svc_start_handle or
-- chr_val_handle, which nothing reads.
structure DiscArg where
  seq : UInt32
  handle : UInt16
deriving DecidableEq, Repr

-- The blocks of malloc_success that the GATT client holds.
abbrev ArgHeap := Heap Nat DiscArg

-- The status of struct ble_gatt_error has sixteen bits.
def gattStatus (status : UInt16) : Int32 :=
  Int32.ofNat status.toNat

-- The records of a cleared event. They have no UUID, and none is looked at.
def GattSvc.zero : GattSvc := ⟨0, 0, .u16 0⟩

def GattChr.zero : GattChr := ⟨0, 0, 0, .u16 0⟩

def GattDsc.zero : GattDsc := ⟨0, .u16 0⟩

def gattcDiscSvcCb (connHandle status : UInt16) (service : GattSvc) (seq : UInt32) : Evt :=
  let svc := if status = 0 then service else GattSvc.zero
  ⟨⟨.evt, .discSvcEvt, seq⟩, .discSvc ⟨connHandle, gattStatus status, svc⟩⟩

-- A status other than 0 is the last one of the procedure, and the argument is freed.
def gattcDiscChrCb (connHandle status : UInt16) (chr : GattChr) (arg : Nat) (heap : ArgHeap) :
    Option (Evt × ArgHeap) := do
  let chrArg ← heap.load arg
  let found := if status = 0 then chr else GattChr.zero
  let heap ← if status = 0 then some heap else heap.free arg
  some (⟨⟨.evt, .discChrEvt, chrArg.seq⟩, .discChr ⟨connHandle, gattStatus status, found⟩⟩, heap)

def gattcDiscDscCb (connHandle status chrDefHandle : UInt16) (dsc : GattDsc) (arg : Nat)
    (heap : ArgHeap) : Option (Evt × ArgHeap) := do
  let dscArg ← heap.load arg
  let found := if status = 0 then dsc else GattDsc.zero
  let heap ← if status = 0 then some heap else heap.free arg
  some (⟨⟨.evt, .discDscEvt, dscArg.seq⟩,
    .discDsc ⟨connHandle, gattStatus status, chrDefHandle, found⟩⟩, heap)

def gattcWriteCb (connHandle status attrHandle : UInt16) (seq : UInt32) : Evt :=
  ⟨⟨.evt, .writeAckEvt, seq⟩, .writeAck ⟨connHandle, attrHandle, gattStatus status⟩⟩

def gattMtuCb (connHandle status mtu : UInt16) (seq : UInt32) : Evt :=
  sendMtuChanged seq connHandle (gattStatus status) mtu

-- The memory of bhd_gattc_disc_all_chrs, bhd_gattc_disc_chr_uuid and
-- bhd_gattc_disc_all_dscs around the call with the result rc.
def gattcDiscArg (block : Nat) (arg : DiscArg) (rc : Int32) (heap : ArgHeap) : Option ArgHeap := do
  let heap ← heap.malloc block arg
  if rc ≠ 0 then heap.free block else some heap

end Blehostd
