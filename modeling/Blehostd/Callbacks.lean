import Blehostd.Gattc
import Blehostd.Gatts.Numbering

namespace Blehostd

-- bhd_gatts_access as far as its wait, which follows when the event is sent. Both the
-- values that are written and the room for a value that is read come as an mbuf.
def gattsAccess (host : CbHost) (accessOp : UInt8) (connHandle attrHandle : UInt16) (om : Mbuf)
    (seq : UInt32) : Option Evt :=
  (host.toFlat om (BLE_ATT_ATTR_MAX_LEN + 3)).map fun buf =>
    sendAccessEvt seq ⟨accessOp, connHandle, attrHandle, buf.val⟩

-- The function and the argument of a callback that the host has been given.
inductive Callback where
  | gapEvent (seq : UInt32)
  | discSvc (seq : UInt32)
  | discChr (arg : Nat)
  | discDsc (arg : Nat)
  | write (seq : UInt32)
  | mtu (seq : UInt32)
deriving DecidableEq, Repr

-- The other arguments that the host passes.
inductive CbInput where
  | gapEvent (event : GapEvent)
  | discSvc (connHandle status : UInt16) (service : GattSvc)
  | discChr (connHandle status : UInt16) (chr : GattChr)
  | discDsc (connHandle status chrDefHandle : UInt16) (dsc : GattDsc)
  | write (connHandle status attrHandle : UInt16)
  | mtu (connHandle status mtu : UInt16)
deriving DecidableEq, Repr

-- No result for a function that is called with arguments of another one.
def runCallback (host : CbHost) (cb : Callback) (input : CbInput) (nextSeq : UInt32)
    (heap : ArgHeap) : Option (CbOutcome × ArgHeap) :=
  match cb, input with
  | .gapEvent seq, .gapEvent event =>
      (gapEvent host event seq nextSeq).toOption.map fun outcome => (outcome, heap)
  | .discSvc seq, .discSvc connHandle status service =>
      some (⟨0, some (gattcDiscSvcCb connHandle status service seq), nextSeq, none⟩, heap)
  | .discChr arg, .discChr connHandle status chr => do
      let (evt, heap) ← gattcDiscChrCb connHandle status chr arg heap
      some (⟨0, some evt, nextSeq, none⟩, heap)
  | .discDsc arg, .discDsc connHandle status chrDefHandle dsc => do
      let (evt, heap) ← gattcDiscDscCb connHandle status chrDefHandle dsc arg heap
      some (⟨0, some evt, nextSeq, none⟩, heap)
  | .write seq, .write connHandle status attrHandle =>
      some (⟨0, some (gattcWriteCb connHandle status attrHandle seq), nextSeq, none⟩, heap)
  | .mtu seq, .mtu connHandle status mtu =>
      some (⟨0, some (gattMtuCb connHandle status mtu seq), nextSeq, none⟩, heap)
  | _, _ => none

-- The callback that a call gives to the host, with the content of its block.
def HostCall.callback (block : Nat) : HostCall → Option (Callback × Option DiscArg)
  | .gapConnect _ seq => some (.gapEvent seq, none)
  | .gapDisc _ seq => some (.gapEvent seq, none)
  | .gapAdvStart _ seq => some (.gapEvent seq, none)
  | .gattcDiscAllSvcs _ seq => some (.discSvc seq, none)
  | .gattcDiscSvcByUuid _ _ seq => some (.discSvc seq, none)
  | .gattcDiscAllChrs range seq => some (.discChr block, some ⟨seq, range.startHandle⟩)
  | .gattcDiscChrsByUuid range _ seq => some (.discChr block, some ⟨seq, range.startHandle⟩)
  | .gattcDiscAllDscs range seq => some (.discDsc block, some ⟨seq, range.startHandle⟩)
  | .gattcWrite _ seq => some (.write seq, none)
  | .gattcExchangeMtu _ seq => some (.mtu seq, none)
  | _ => none

-- The host's last call of this callback: the end of a discovery, the answer to a write or
-- to an MTU exchange. The callback of a connection stays.
def CbInput.last : CbInput → Bool
  | .gapEvent _ => false
  | .discSvc _ status _ => status ≠ 0
  | .discChr _ status _ => status ≠ 0
  | .discDsc _ status _ _ => status ≠ 0
  | .write _ _ _ => true
  | .mtu _ _ _ => true

end Blehostd
