import Blehostd.Gatts

namespace Blehostd.Gatts

-- The definition tree as the host reads it through the pointers.
structure DscNode where
  uuid : Option UuidAny
  attFlags : UInt8
  minKeySize : UInt8
  accessCb : Bool
  arg : UInt32
deriving DecidableEq, Repr

structure ChrNode where
  uuid : Option UuidAny
  flags : UInt16
  minKeySize : UInt8
  accessCb : Bool
  arg : UInt32
  valHandle : Option Nat
  dscs : List DscNode
deriving DecidableEq, Repr

structure SvcNode where
  type : UInt8
  uuid : Option UuidAny
  chrs : List ChrNode
deriving DecidableEq, Repr

namespace State

def dscNode (s : State) (dsc : DscDef) : DscNode :=
  ⟨dsc.uuid.map s.uuids, dsc.attFlags, dsc.minKeySize, dsc.accessCb, dsc.arg⟩

-- A list of descriptors ends at the first NULL uuid, and a NULL pointer is an
-- empty list.
def hostDscs (s : State) : Option Nat → Option (List DscNode)
  | none => some []
  | some i =>
      SlotTable.read (fun dsc : DscDef => dsc.uuid.isNone) (fun dsc => some (s.dscNode dsc)) s.dscs
        (BHD_GATTS_MAX_DSCS - i) i

def chrNode (s : State) (chr : ChrDef) : Option ChrNode :=
  (s.hostDscs chr.descriptors).map fun dscs =>
    ⟨chr.uuid.map s.uuids, chr.flags, chr.minKeySize, chr.accessCb, chr.arg, chr.valHandle, dscs⟩

def hostChrs (s : State) : Option Nat → Option (List ChrNode)
  | none => some []
  | some i =>
      SlotTable.read (fun chr : ChrDef => chr.uuid.isNone) s.chrNode s.chrs
        (BHD_GATTS_MAX_CHRS - i) i

def svcNode (s : State) (svc : SvcDef) : Option SvcNode :=
  (s.hostChrs svc.characteristics).map fun chrs => ⟨svc.type, svc.uuid.map s.uuids, chrs⟩

-- What ble_gatts_count_cfg and ble_gatts_add_svcs walk: the services up to the
-- first record of type 0. There is no tree when a list runs off its table.
def hostSvcs (s : State) : Option (List SvcNode) :=
  SlotTable.read (fun svc : SvcDef => svc.type == 0) s.svcNode s.svcs BHD_GATTS_MAX_SVCS 0

end State

-- The nodes of the services of a request, when the first attribute gets the
-- sequence number `seq` and the first characteristic the value handle `slot`.
def succSeq (seq : UInt32) : UInt32 :=
  (nextEvtSeq seq).2

def seqAfterDscs (seq : UInt32) (dscs : List Dsc) : UInt32 :=
  dscs.foldl (fun seq _ => succSeq seq) seq

def seqAfterChr (seq : UInt32) (chr : Chr) : UInt32 :=
  seqAfterDscs (succSeq seq) chr.dscs

def seqAfterChrs (seq : UInt32) (chrs : List Chr) : UInt32 :=
  chrs.foldl seqAfterChr seq

def dscNodeOf (seq : UInt32) (dsc : Dsc) : DscNode :=
  ⟨some dsc.uuid, dsc.attFlags, dsc.minKeySize, true, seq⟩

def dscNodesOf : UInt32 → List Dsc → List DscNode
  | _, [] => []
  | seq, dsc :: rest => dscNodeOf seq dsc :: dscNodesOf (succSeq seq) rest

def chrNodeOf (seq : UInt32) (slot : Nat) (chr : Chr) : ChrNode :=
  ⟨some (.known chr.uuid), chr.flags, chr.minKeySize, true, seq, some slot,
    dscNodesOf (succSeq seq) chr.dscs⟩

def chrNodesOf : UInt32 → Nat → List Chr → List ChrNode
  | _, _, [] => []
  | seq, slot, chr :: rest =>
      chrNodeOf seq slot chr :: chrNodesOf (seqAfterChr seq chr) (slot + 1) rest

def svcNodeOf (seq : UInt32) (slot : Nat) (svc : Svc) : SvcNode :=
  ⟨svc.type.code, some (.known svc.uuid), chrNodesOf seq slot svc.chrs⟩

def svcNodesOf : UInt32 → Nat → List Svc → List SvcNode
  | _, _, [] => []
  | seq, slot, svc :: rest =>
      svcNodeOf seq slot svc ::
        svcNodesOf (seqAfterChrs seq svc.chrs) (slot + svc.chrs.length) rest

-- A node describes the record it was made from, whatever its argument and its
-- value handle are.
def DscNode.Describes (node : DscNode) (dsc : Dsc) : Prop :=
  node.uuid = some dsc.uuid ∧ node.attFlags = dsc.attFlags ∧
    node.minKeySize = dsc.minKeySize ∧ node.accessCb = true

def ChrNode.Describes (node : ChrNode) (chr : Chr) : Prop :=
  node.uuid = some (.known chr.uuid) ∧ node.flags = chr.flags ∧ node.minKeySize = chr.minKeySize ∧
    node.accessCb = true ∧ List.Forall₂ DscNode.Describes node.dscs chr.dscs

def SvcNode.Describes (node : SvcNode) (svc : Svc) : Prop :=
  node.type = svc.type.code ∧ node.uuid = some (.known svc.uuid) ∧
    List.Forall₂ ChrNode.Describes node.chrs svc.chrs

end Blehostd.Gatts
