import Mathlib.Algebra.Order.Ring.Nat
import Blehostd.Gatts.Tree

namespace Blehostd.Gatts

open SlotTable (SameOutside)

-- Slots are filled at the counters, and the counters only grow.
structure Grows (s s' : State) : Prop where
  svcs : SameOutside s.numSvcs s'.numSvcs s.svcs s'.svcs
  chrs : SameOutside s.numChrs s'.numChrs s.chrs s'.chrs
  dscs : SameOutside s.numDscs s'.numDscs s.dscs s'.dscs
  uuids : SameOutside s.numUuids s'.numUuids s.uuids s'.uuids
  numSvcs : s.numSvcs ≤ s'.numSvcs
  numChrs : s.numChrs ≤ s'.numChrs
  numDscs : s.numDscs ≤ s'.numDscs
  numUuids : s.numUuids ≤ s'.numUuids
  numValHandles : s.numValHandles ≤ s'.numValHandles

namespace Grows

theorem refl (s : State) : Grows s s where
  svcs := SameOutside.refl _ _ _
  chrs := SameOutside.refl _ _ _
  dscs := SameOutside.refl _ _ _
  uuids := SameOutside.refl _ _ _
  numSvcs := Nat.le_refl _
  numChrs := Nat.le_refl _
  numDscs := Nat.le_refl _
  numUuids := Nat.le_refl _
  numValHandles := Nat.le_refl _

theorem trans {s s' s'' : State} (h : Grows s s') (h' : Grows s' s'') : Grows s s'' where
  svcs := h.svcs.trans h'.svcs h.numSvcs h'.numSvcs
  chrs := h.chrs.trans h'.chrs h.numChrs h'.numChrs
  dscs := h.dscs.trans h'.dscs h.numDscs h'.numDscs
  uuids := h.uuids.trans h'.uuids h.numUuids h'.numUuids
  numSvcs := Nat.le_trans h.numSvcs h'.numSvcs
  numChrs := Nat.le_trans h.numChrs h'.numChrs
  numDscs := Nat.le_trans h.numDscs h'.numDscs
  numUuids := Nat.le_trans h.numUuids h'.numUuids
  numValHandles := Nat.le_trans h.numValHandles h'.numValHandles

end Grows

-- The effect of the save functions on one record, when no assert fails.
namespace State

def putDsc (dsc : Dsc) (s : State) : State :=
  { s with
    uuids := Function.update s.uuids s.numUuids dsc.uuid
    numUuids := s.numUuids + 1
    dscs := Function.update s.dscs s.numDscs
      ⟨some s.numUuids, dsc.attFlags, dsc.minKeySize, true, s.nextSeq⟩
    numDscs := s.numDscs + 1
    nextSeq := succSeq s.nextSeq }

-- The record of a characteristic before its descriptors are saved.
def putChr (chr : Chr) (s : State) : State :=
  { s with
    uuids := Function.update s.uuids s.numUuids (.known chr.uuid)
    numUuids := s.numUuids + 1
    chrs := Function.update s.chrs s.numChrs
      ⟨some s.numUuids, chr.flags, chr.minKeySize, true, s.nextSeq, some s.numValHandles,
        if 0 < chr.dscs.length then some s.numDscs else (s.chrs s.numChrs).descriptors⟩
    numValHandles := s.numValHandles + 1
    nextSeq := succSeq s.nextSeq }

def putSvc (svc : Svc) (s : State) : State :=
  { s with
    uuids := Function.update s.uuids s.numUuids (.known svc.uuid)
    numUuids := s.numUuids + 1
    svcs := Function.update s.svcs s.numSvcs
      ⟨svc.type.code, some s.numUuids,
        if 0 < svc.chrs.length then some s.numChrs else (s.svcs s.numSvcs).characteristics⟩ }

def endDscs (s : State) : State :=
  { s with numDscs := s.numDscs + 1 }

def endChrs (s : State) : State :=
  { s with numChrs := s.numChrs + 1 }

def endSvcs (s : State) : State :=
  { s with numSvcs := s.numSvcs + 1 }

end State

theorem saveDsc_ok (dsc : Dsc) (s s' : State) : saveDsc dsc s = .ok s' ↔
    s.numDscs < BHD_GATTS_MAX_DSCS ∧ s.numUuids < BHD_GATTS_MAX_UUIDS ∧ s' = s.putDsc dsc := by
  unfold saveDsc saveUuid
  simp only [bind_ok, require_ok, exists_const, Except.ok.injEq]
  constructor
  · intro h
    obtain ⟨hdscs, _, ⟨huuids, rfl⟩, rfl⟩ := h
    exact ⟨hdscs, huuids, rfl⟩
  · intro h
    exact ⟨h.1, _, ⟨h.2.1, rfl⟩, h.2.2.symm⟩

theorem saveDscs_ok (dscs : List Dsc) (s s' : State) : saveDscs dscs s = .ok s' ↔
    ∃ mid, dscs.foldlM (fun s dsc => saveDsc dsc s) s = .ok mid ∧
      mid.numDscs < BHD_GATTS_MAX_DSCS ∧ s' = mid.endDscs := by
  unfold saveDscs
  simp only [bind_ok, require_ok, exists_const, Except.ok.injEq, State.endDscs, @eq_comm _ s']

-- A list of descriptors is saved with its terminator, or there is none.
theorem saveDscs_cases (dscs : List Dsc) (s s' : State)
    (h : (if 0 < dscs.length then saveDscs dscs s else .ok s) = .ok s') :
    (0 < dscs.length ∧ ∃ mid, dscs.foldlM (fun s dsc => saveDsc dsc s) s = .ok mid ∧
      mid.numDscs < BHD_GATTS_MAX_DSCS ∧ s' = mid.endDscs) ∨ dscs = [] ∧ s' = s := by
  by_cases hlen : 0 < dscs.length
  · rw [if_pos hlen] at h
    exact Or.inl ⟨hlen, (saveDscs_ok dscs s s').mp h⟩
  · rw [if_neg hlen] at h
    exact Or.inr ⟨List.length_eq_zero_iff.mp (by omega), (Except.ok.inj h).symm⟩

theorem saveChr_ok (chr : Chr) (s s' : State) : saveChr chr s = .ok s' ↔
    s.numChrs < BHD_GATTS_MAX_CHRS ∧ s.numUuids < BHD_GATTS_MAX_UUIDS ∧
      s.numValHandles < BHD_GATTS_MAX_VAL_HANDLES ∧
      ∃ mid, (if 0 < chr.dscs.length then saveDscs chr.dscs (s.putChr chr)
        else .ok (s.putChr chr)) = .ok mid ∧ s' = mid.endChrs := by
  unfold saveChr saveUuid
  simp only [bind_ok, require_ok, exists_const, Except.ok.injEq]
  constructor
  · intro h
    obtain ⟨hchrs, _, ⟨huuids, rfl⟩, hhandles, mid, hmid, rfl⟩ := h
    exact ⟨hchrs, huuids, hhandles, mid, hmid, rfl⟩
  · intro h
    obtain ⟨hchrs, huuids, hhandles, mid, hmid, rfl⟩ := h
    exact ⟨hchrs, _, ⟨huuids, rfl⟩, hhandles, mid, hmid, rfl⟩

theorem saveChrs_ok (chrs : List Chr) (s s' : State) : saveChrs chrs s = .ok s' ↔
    ∃ mid, chrs.foldlM (fun s chr => saveChr chr s) s = .ok mid ∧
      mid.numChrs < BHD_GATTS_MAX_CHRS ∧ s' = mid.endChrs := by
  unfold saveChrs
  simp only [bind_ok, require_ok, exists_const, Except.ok.injEq, State.endChrs, @eq_comm _ s']

theorem saveChrs_cases (chrs : List Chr) (s s' : State)
    (h : (if 0 < chrs.length then saveChrs chrs s else .ok s) = .ok s') :
    (0 < chrs.length ∧ ∃ mid, chrs.foldlM (fun s chr => saveChr chr s) s = .ok mid ∧
      mid.numChrs < BHD_GATTS_MAX_CHRS ∧ s' = mid.endChrs) ∨ chrs = [] ∧ s' = s := by
  by_cases hlen : 0 < chrs.length
  · rw [if_pos hlen] at h
    exact Or.inl ⟨hlen, (saveChrs_ok chrs s s').mp h⟩
  · rw [if_neg hlen] at h
    exact Or.inr ⟨List.length_eq_zero_iff.mp (by omega), (Except.ok.inj h).symm⟩

theorem saveSvc_ok (svc : Svc) (s s' : State) : saveSvc svc s = .ok s' ↔
    s.numSvcs < BHD_GATTS_MAX_SVCS ∧ s.numUuids < BHD_GATTS_MAX_UUIDS ∧
      ∃ mid, (if 0 < svc.chrs.length then saveChrs svc.chrs (s.putSvc svc)
        else .ok (s.putSvc svc)) = .ok mid ∧ s' = mid.endSvcs := by
  unfold saveSvc saveUuid
  simp only [bind_ok, require_ok, exists_const, Except.ok.injEq]
  constructor
  · intro h
    obtain ⟨hsvcs, _, ⟨huuids, rfl⟩, mid, hmid, rfl⟩ := h
    exact ⟨hsvcs, huuids, mid, hmid, rfl⟩
  · intro h
    obtain ⟨hsvcs, huuids, mid, hmid, rfl⟩ := h
    exact ⟨hsvcs, _, ⟨huuids, rfl⟩, mid, hmid, rfl⟩

theorem addSvcs_ok (svcs : List Svc) (s s' : State) : addSvcs svcs s = .ok (0, s') ↔
    verifyResourceCnt svcs s = 0 ∧
      ∃ mid, svcs.foldlM (fun s svc => saveSvc svc s) s = .ok mid ∧
        mid.numSvcs < BHD_GATTS_MAX_SVCS ∧ s' = mid.endSvcs := by
  unfold addSvcs
  by_cases hrc : verifyResourceCnt svcs s = 0
  · simp only [hrc, ite_true, true_and, bind_ok, require_ok, exists_const, Except.ok.injEq,
      Prod.mk.injEq, State.endSvcs, @eq_comm _ s']
  · simp [hrc]

theorem foldlM_cons_ok {α : Type} (f : State → α → Except Fault State) (a : α) (rest : List α)
    (s s' : State) : (a :: rest).foldlM f s = .ok s' ↔
      ∃ mid, f s a = .ok mid ∧ rest.foldlM f mid = .ok s' := by
  rw [List.foldlM_cons, bind_ok]

theorem Grows.putDsc (dsc : Dsc) (s : State) : Grows s (s.putDsc dsc) where
  svcs := SameOutside.refl _ _ _
  chrs := SameOutside.refl _ _ _
  dscs := SameOutside.update _ _ _
  uuids := SameOutside.update _ _ _
  numSvcs := Nat.le_refl _
  numChrs := Nat.le_refl _
  numDscs := Nat.le_succ _
  numUuids := Nat.le_succ _
  numValHandles := Nat.le_refl _

theorem Grows.endDscs (s : State) : Grows s s.endDscs :=
  { Grows.refl s with
    dscs := SameOutside.refl _ _ _
    numDscs := Nat.le_succ _ }

theorem Grows.endChrs (s : State) : Grows s s.endChrs :=
  { Grows.refl s with
    chrs := SameOutside.refl _ _ _
    numChrs := Nat.le_succ _ }

-- A stored descriptor reads as the node.
def DscAt (s : State) (i : Nat) (node : DscNode) : Prop :=
  i < s.numDscs ∧ (∃ slot, slot < s.numUuids ∧ (s.dscs i).uuid = some slot) ∧
    s.dscNode (s.dscs i) = node

def DscsAt (s : State) : Nat → List DscNode → Prop
  | _, [] => True
  | i, node :: rest => DscAt s i node ∧ DscsAt s (i + 1) rest

theorem DscAt.grows {s s' : State} {i : Nat} {node : DscNode} (h : DscAt s i node)
    (hg : Grows s s') : DscAt s' i node := by
  obtain ⟨hi, ⟨slot, hslot, huuid⟩, hnode⟩ := h
  have hsame : s'.dscs i = s.dscs i := hg.dscs i (Or.inl hi)
  have hvalue : s'.uuids slot = s.uuids slot := hg.uuids slot (Or.inl hslot)
  refine ⟨Nat.lt_of_lt_of_le hi hg.numDscs, ⟨slot, Nat.lt_of_lt_of_le hslot hg.numUuids, ?_⟩, ?_⟩
  · rw [hsame, huuid]
  · rw [hsame, ← hnode]
    simp only [State.dscNode, huuid, Option.map_some, hvalue]

theorem DscsAt.grows {s s' : State} {i : Nat} {nodes : List DscNode} (h : DscsAt s i nodes)
    (hg : Grows s s') : DscsAt s' i nodes := by
  induction nodes generalizing i with
  | nil => exact trivial
  | cons node rest ih => exact ⟨h.1.grows hg, ih h.2⟩

theorem dscAt_put (dsc : Dsc) (s : State) :
    DscAt (s.putDsc dsc) s.numDscs (dscNodeOf s.nextSeq dsc) := by
  refine ⟨Nat.lt_succ_self _, ⟨s.numUuids, Nat.lt_succ_self _, ?_⟩, ?_⟩
  · simp [State.putDsc]
  · simp [State.putDsc, State.dscNode, dscNodeOf]

structure DscsSaved (dscs : List Dsc) (s s' : State) : Prop where
  grows : Grows s s'
  numSvcs : s'.numSvcs = s.numSvcs
  numChrs : s'.numChrs = s.numChrs
  numDscs : s'.numDscs = s.numDscs + dscs.length
  numUuids : s'.numUuids = s.numUuids + dscs.length
  numValHandles : s'.numValHandles = s.numValHandles
  nextSeq : s'.nextSeq = seqAfterDscs s.nextSeq dscs
  stored : DscsAt s' s.numDscs (dscNodesOf s.nextSeq dscs)

theorem foldlM_saveDsc (dscs : List Dsc) (s s' : State)
    (h : dscs.foldlM (fun s dsc => saveDsc dsc s) s = .ok s') : DscsSaved dscs s s' := by
  induction dscs generalizing s with
  | nil =>
      obtain rfl : s = s' := Except.ok.inj h
      exact ⟨Grows.refl s, rfl, rfl, rfl, rfl, rfl, rfl, trivial⟩
  | cons dsc rest ih =>
      obtain ⟨mid, hmid, hrest⟩ := (foldlM_cons_ok _ _ _ _ _).mp h
      obtain ⟨_, _, rfl⟩ := (saveDsc_ok dsc s mid).mp hmid
      have hsaved := ih _ hrest
      refine ⟨(Grows.putDsc dsc s).trans hsaved.grows, hsaved.numSvcs, hsaved.numChrs, ?_, ?_,
        hsaved.numValHandles, hsaved.nextSeq, (dscAt_put dsc s).grows hsaved.grows,
        hsaved.stored⟩
      · rw [hsaved.numDscs, List.length_cons]
        simp only [State.putDsc]
        omega
      · rw [hsaved.numUuids, List.length_cons]
        simp only [State.putDsc]
        omega

-- The slots of a characteristic's descriptors, with the terminator.
def dscSlots (chr : Chr) : Nat :=
  if 0 < chr.dscs.length then chr.dscs.length + 1 else 0

-- The descriptors are stored and the slot after them, where the list is meant
-- to end, still holds what it held before.
def DscListAt (base s : State) (d : Nat) (nodes : List DscNode) : Prop :=
  DscsAt s d nodes ∧ d + nodes.length < s.numDscs ∧
    s.dscs (d + nodes.length) = base.dscs (d + nodes.length)

structure DscListSaved (chr : Chr) (s s' : State) : Prop where
  grows : Grows s s'
  numSvcs : s'.numSvcs = s.numSvcs
  numChrs : s'.numChrs = s.numChrs
  numDscs : s'.numDscs = s.numDscs + dscSlots chr
  numUuids : s'.numUuids = s.numUuids + chr.dscs.length
  numValHandles : s'.numValHandles = s.numValHandles
  nextSeq : s'.nextSeq = seqAfterDscs s.nextSeq chr.dscs
  stored : 0 < chr.dscs.length → DscListAt s s' s.numDscs (dscNodesOf s.nextSeq chr.dscs)

theorem length_dscNodesOf (seq : UInt32) (dscs : List Dsc) :
    (dscNodesOf seq dscs).length = dscs.length := by
  induction dscs generalizing seq with
  | nil => rfl
  | cons dsc rest ih => simp [dscNodesOf, ih]

theorem saveDscs_saved (chr : Chr) (s s' : State)
    (h : (if 0 < chr.dscs.length then saveDscs chr.dscs s else .ok s) = .ok s') :
    DscListSaved chr s s' := by
  rcases saveDscs_cases chr.dscs s s' h with ⟨hlen, mid, hmid, _, rfl⟩ | ⟨hnil, rfl⟩
  · have hsaved := foldlM_saveDsc _ _ _ hmid
    have hslots : dscSlots chr = chr.dscs.length + 1 := if_pos hlen
    refine ⟨hsaved.grows.trans (Grows.endDscs mid), hsaved.numSvcs, hsaved.numChrs, ?_,
      hsaved.numUuids, hsaved.numValHandles, hsaved.nextSeq, ?_⟩
    · show mid.numDscs + 1 = _
      rw [hsaved.numDscs, hslots, Nat.add_assoc]
    · intro _
      refine ⟨hsaved.stored.grows (Grows.endDscs mid), ?_, ?_⟩
      · show _ < mid.numDscs + 1
        rw [hsaved.numDscs, length_dscNodesOf]
        omega
      · refine hsaved.grows.dscs _ (Or.inr ?_)
        rw [hsaved.numDscs, length_dscNodesOf]
  · have hslots : dscSlots chr = 0 := by simp [dscSlots, hnil]
    have hlen : ¬0 < chr.dscs.length := by simp [hnil]
    refine ⟨Grows.refl s', rfl, rfl, ?_, ?_, rfl, ?_, fun hpos => absurd hpos hlen⟩
    · rw [hslots, Nat.add_zero]
    · rw [hnil, List.length_nil, Nat.add_zero]
    · rw [hnil]
      rfl

-- A stored characteristic. Where it has no descriptors, the pointer to them is
-- the one the slot held before.
structure ChrAt (base s : State) (c d : Nat) (seq : UInt32) (slot : Nat) (chr : Chr) : Prop where
  bound : c < s.numChrs
  slotBound : slot < s.numValHandles
  record : ∃ u, u < s.numUuids ∧ s.uuids u = .known chr.uuid ∧
    s.chrs c = ⟨some u, chr.flags, chr.minKeySize, true, seq, some slot,
      if 0 < chr.dscs.length then some d else (base.chrs c).descriptors⟩
  dscs : 0 < chr.dscs.length → DscListAt base s d (dscNodesOf (succSeq seq) chr.dscs)

def ChrsAt (base s : State) : Nat → Nat → UInt32 → Nat → List Chr → Prop
  | _, _, _, _, [] => True
  | c, d, seq, slot, chr :: rest =>
      ChrAt base s c d seq slot chr ∧
        ChrsAt base s (c + 1) (d + dscSlots chr) (seqAfterChr seq chr) (slot + 1) rest

theorem DscListAt.grows {base s s' : State} {d : Nat} {nodes : List DscNode}
    (h : DscListAt base s d nodes) (hg : Grows s s') : DscListAt base s' d nodes := by
  obtain ⟨hstored, hbound, hend⟩ := h
  refine ⟨hstored.grows hg, Nat.lt_of_lt_of_le hbound hg.numDscs, ?_⟩
  exact (hg.dscs _ (Or.inl hbound)).trans hend

theorem ChrAt.grows {base s s' : State} {c d : Nat} {seq : UInt32} {slot : Nat} {chr : Chr}
    (h : ChrAt base s c d seq slot chr) (hg : Grows s s') : ChrAt base s' c d seq slot chr where
  bound := Nat.lt_of_lt_of_le h.bound hg.numChrs
  slotBound := Nat.lt_of_lt_of_le h.slotBound hg.numValHandles
  record := by
    obtain ⟨u, hu, huuid, hrecord⟩ := h.record
    refine ⟨u, Nat.lt_of_lt_of_le hu hg.numUuids, ?_, ?_⟩
    · exact (hg.uuids u (Or.inl hu)).trans huuid
    · exact (hg.chrs c (Or.inl h.bound)).trans hrecord
  dscs := fun hpos => (h.dscs hpos).grows hg

theorem ChrsAt.grows {base s s' : State} {c d : Nat} {seq : UInt32} {slot : Nat}
    {chrs : List Chr} (h : ChrsAt base s c d seq slot chrs) (hg : Grows s s') :
    ChrsAt base s' c d seq slot chrs := by
  induction chrs generalizing c d seq slot with
  | nil => exact trivial
  | cons chr rest ih => exact ⟨h.1.grows hg, ih h.2⟩

-- Only the slots from these two on are read in the base state.
theorem ChrAt.base {base base' s : State} {c d : Nat} {seq : UInt32} {slot : Nat} {chr : Chr}
    (h : ChrAt base' s c d seq slot chr) (hc : ∀ i, c ≤ i → base'.chrs i = base.chrs i)
    (hd : ∀ i, d ≤ i → base'.dscs i = base.dscs i) : ChrAt base s c d seq slot chr where
  bound := h.bound
  slotBound := h.slotBound
  record := by
    rw [← hc c (Nat.le_refl c)]
    exact h.record
  dscs := by
    intro hpos
    obtain ⟨hstored, hbound, hend⟩ := h.dscs hpos
    exact ⟨hstored, hbound, hend.trans (hd _ (Nat.le_add_right _ _))⟩

theorem ChrsAt.base {base base' s : State} {c d : Nat} {seq : UInt32} {slot : Nat}
    {chrs : List Chr} (h : ChrsAt base' s c d seq slot chrs)
    (hc : ∀ i, c ≤ i → base'.chrs i = base.chrs i)
    (hd : ∀ i, d ≤ i → base'.dscs i = base.dscs i) : ChrsAt base s c d seq slot chrs := by
  induction chrs generalizing c d seq slot with
  | nil => exact trivial
  | cons chr rest ih =>
      refine ⟨h.1.base hc hd, ih h.2 ?_ ?_⟩
      · intro i hi
        exact hc i (by omega)
      · intro i hi
        exact hd i (by omega)

structure ChrsSaved (chrs : List Chr) (s s' : State) : Prop where
  grows : Grows s s'
  numSvcs : s'.numSvcs = s.numSvcs
  numChrs : s'.numChrs = s.numChrs + chrs.length
  numDscs : s'.numDscs = s.numDscs + (chrs.map dscSlots).sum
  numUuids : s'.numUuids = s.numUuids + (chrs.map fun chr => 1 + chr.dscs.length).sum
  numValHandles : s'.numValHandles = s.numValHandles + chrs.length
  nextSeq : s'.nextSeq = seqAfterChrs s.nextSeq chrs
  stored : ChrsAt s s' s.numChrs s.numDscs s.nextSeq s.numValHandles chrs

theorem saveChr_saved (chr : Chr) (s s' : State) (h : saveChr chr s = .ok s') :
    ChrsSaved [chr] s s' := by
  obtain ⟨_, _, _, mid, hmid, rfl⟩ := (saveChr_ok chr s s').mp h
  have hsaved := saveDscs_saved chr (s.putChr chr) mid hmid
  have hchrs : mid.chrs = (s.putChr chr).chrs := by
    have hsame := hsaved.grows.chrs
    rw [hsaved.numChrs] at hsame
    exact hsame.eq
  have hgrows : Grows s mid.endChrs :=
    { svcs := hsaved.grows.svcs
      chrs := by
        show SameOutside s.numChrs (mid.numChrs + 1) s.chrs mid.chrs
        rw [hchrs, hsaved.numChrs]
        exact SameOutside.update _ _ _
      dscs := hsaved.grows.dscs
      uuids := (SameOutside.update s.uuids s.numUuids (.known chr.uuid)).trans hsaved.grows.uuids
        (Nat.le_succ _) hsaved.grows.numUuids
      numSvcs := hsaved.grows.numSvcs
      numChrs := Nat.le_succ_of_le hsaved.grows.numChrs
      numDscs := hsaved.grows.numDscs
      numUuids := Nat.le_of_succ_le hsaved.grows.numUuids
      numValHandles := Nat.le_of_succ_le hsaved.grows.numValHandles }
  refine ⟨hgrows, hsaved.numSvcs, congrArg Nat.succ hsaved.numChrs, ?_, ?_,
    hsaved.numValHandles, hsaved.nextSeq, ⟨?_, trivial⟩⟩
  · simp only [List.map_cons, List.map_nil, List.sum_cons, List.sum_nil, Nat.add_zero]
    exact hsaved.numDscs
  · have hnum : mid.numUuids = s.numUuids + 1 + chr.dscs.length := hsaved.numUuids
    simp only [State.endChrs, List.map_cons, List.map_nil, List.sum_cons, List.sum_nil]
    omega
  · refine ⟨?_, ?_, ⟨s.numUuids, ?_, ?_, ?_⟩, ?_⟩
    · show s.numChrs < mid.numChrs + 1
      rw [hsaved.numChrs]
      exact Nat.lt_succ_self _
    · show s.numValHandles < mid.numValHandles
      rw [hsaved.numValHandles]
      exact Nat.lt_succ_self _
    · exact hsaved.grows.numUuids
    · have hsame := hsaved.grows.uuids s.numUuids (Or.inl (Nat.lt_succ_self _))
      exact hsame.trans (Function.update_self _ _ _)
    · show mid.chrs s.numChrs = _
      rw [hchrs]
      exact Function.update_self _ _ _
    · exact fun hpos => (hsaved.stored hpos).grows (Grows.endChrs mid)

theorem foldlM_saveChr (chrs : List Chr) (s s' : State)
    (h : chrs.foldlM (fun s chr => saveChr chr s) s = .ok s') : ChrsSaved chrs s s' := by
  induction chrs generalizing s with
  | nil =>
      obtain rfl : s = s' := Except.ok.inj h
      exact ⟨Grows.refl s, rfl, rfl, rfl, rfl, rfl, rfl, trivial⟩
  | cons chr rest ih =>
      obtain ⟨mid, hmid, hrest⟩ := (foldlM_cons_ok _ _ _ _ _).mp h
      have hfirst := saveChr_saved chr s mid hmid
      have hsaved := ih _ hrest
      have hnumChrs : mid.numChrs = s.numChrs + 1 := hfirst.numChrs
      have hnumDscs : mid.numDscs = s.numDscs + dscSlots chr := by simpa using hfirst.numDscs
      have hnumUuids := hfirst.numUuids
      have hnumValHandles : mid.numValHandles = s.numValHandles + 1 := hfirst.numValHandles
      have hnextSeq : mid.nextSeq = seqAfterChr s.nextSeq chr := hfirst.nextSeq
      refine ⟨hfirst.grows.trans hsaved.grows, hsaved.numSvcs.trans hfirst.numSvcs, ?_, ?_, ?_, ?_,
        ?_, hfirst.stored.1.grows hsaved.grows, ?_⟩
      · rw [hsaved.numChrs, hnumChrs, List.length_cons]
        omega
      · rw [hsaved.numDscs, hnumDscs, List.map_cons, List.sum_cons]
        omega
      · rw [hsaved.numUuids, hnumUuids]
        simp only [List.map_cons, List.map_nil, List.sum_cons, List.sum_nil]
        omega
      · rw [hsaved.numValHandles, hnumValHandles, List.length_cons]
        omega
      · rw [hsaved.nextSeq, hnextSeq]
        rfl
      · rw [← hnumChrs, ← hnumDscs, ← hnextSeq, ← hnumValHandles]
        exact hsaved.stored.base (fun i hi => hfirst.grows.chrs i (Or.inr hi))
          (fun i hi => hfirst.grows.dscs i (Or.inr hi))

-- The slots a service takes in the tables below it, terminators included.
def chrSlots (svc : Svc) : Nat :=
  if 0 < svc.chrs.length then svc.chrs.length + 1 else 0

def svcDscSlots (svc : Svc) : Nat :=
  (svc.chrs.map dscSlots).sum

def svcUuids (svc : Svc) : Nat :=
  1 + (svc.chrs.map fun chr => 1 + chr.dscs.length).sum

def ChrListAt (base s : State) (c d : Nat) (seq : UInt32) (slot : Nat) (chrs : List Chr) : Prop :=
  ChrsAt base s c d seq slot chrs ∧ c + chrs.length < s.numChrs ∧
    s.chrs (c + chrs.length) = base.chrs (c + chrs.length)

structure ChrListSaved (svc : Svc) (s s' : State) : Prop where
  grows : Grows s s'
  numSvcs : s'.numSvcs = s.numSvcs
  numChrs : s'.numChrs = s.numChrs + chrSlots svc
  numDscs : s'.numDscs = s.numDscs + svcDscSlots svc
  numUuids : s'.numUuids + 1 = s.numUuids + svcUuids svc
  numValHandles : s'.numValHandles = s.numValHandles + svc.chrs.length
  nextSeq : s'.nextSeq = seqAfterChrs s.nextSeq svc.chrs
  stored : 0 < svc.chrs.length →
    ChrListAt s s' s.numChrs s.numDscs s.nextSeq s.numValHandles svc.chrs

theorem saveChrs_saved (svc : Svc) (s s' : State)
    (h : (if 0 < svc.chrs.length then saveChrs svc.chrs s else .ok s) = .ok s') :
    ChrListSaved svc s s' := by
  rcases saveChrs_cases svc.chrs s s' h with ⟨hlen, mid, hmid, _, rfl⟩ | ⟨hnil, rfl⟩
  · have hsaved := foldlM_saveChr _ _ _ hmid
    have hslots : chrSlots svc = svc.chrs.length + 1 := if_pos hlen
    refine ⟨hsaved.grows.trans (Grows.endChrs mid), hsaved.numSvcs, ?_, hsaved.numDscs, ?_,
      hsaved.numValHandles, hsaved.nextSeq, ?_⟩
    · show mid.numChrs + 1 = _
      rw [hsaved.numChrs, hslots, Nat.add_assoc]
    · show mid.numUuids + 1 = _
      rw [hsaved.numUuids, svcUuids]
      omega
    · intro _
      refine ⟨hsaved.stored.grows (Grows.endChrs mid), ?_, ?_⟩
      · show _ < mid.numChrs + 1
        rw [hsaved.numChrs]
        exact Nat.lt_succ_self _
      · refine hsaved.grows.chrs _ (Or.inr ?_)
        rw [hsaved.numChrs]
  · have hslots : chrSlots svc = 0 := by simp [chrSlots, hnil]
    have hlen : ¬0 < svc.chrs.length := by simp [hnil]
    refine ⟨Grows.refl s', rfl, ?_, ?_, ?_, ?_, ?_, fun hpos => absurd hpos hlen⟩
    · rw [hslots, Nat.add_zero]
    · simp [svcDscSlots, hnil]
    · simp [svcUuids, hnil]
    · simp [hnil]
    · rw [hnil]
      rfl

structure SvcAt (base s : State) (i c d : Nat) (seq : UInt32) (slot : Nat) (svc : Svc) : Prop where
  bound : i < s.numSvcs
  record : ∃ u, u < s.numUuids ∧ s.uuids u = .known svc.uuid ∧
    s.svcs i = ⟨svc.type.code, some u,
      if 0 < svc.chrs.length then some c else (base.svcs i).characteristics⟩
  chrs : 0 < svc.chrs.length → ChrListAt base s c d seq slot svc.chrs

def SvcsAt (base s : State) : Nat → Nat → Nat → UInt32 → Nat → List Svc → Prop
  | _, _, _, _, _, [] => True
  | i, c, d, seq, slot, svc :: rest =>
      SvcAt base s i c d seq slot svc ∧
        SvcsAt base s (i + 1) (c + chrSlots svc) (d + svcDscSlots svc)
          (seqAfterChrs seq svc.chrs) (slot + svc.chrs.length) rest

theorem ChrListAt.grows {base s s' : State} {c d : Nat} {seq : UInt32} {slot : Nat}
    {chrs : List Chr} (h : ChrListAt base s c d seq slot chrs) (hg : Grows s s') :
    ChrListAt base s' c d seq slot chrs := by
  obtain ⟨hstored, hbound, hend⟩ := h
  refine ⟨hstored.grows hg, Nat.lt_of_lt_of_le hbound hg.numChrs, ?_⟩
  exact (hg.chrs _ (Or.inl hbound)).trans hend

theorem SvcAt.grows {base s s' : State} {i c d : Nat} {seq : UInt32} {slot : Nat} {svc : Svc}
    (h : SvcAt base s i c d seq slot svc) (hg : Grows s s') :
    SvcAt base s' i c d seq slot svc where
  bound := Nat.lt_of_lt_of_le h.bound hg.numSvcs
  record := by
    obtain ⟨u, hu, huuid, hrecord⟩ := h.record
    refine ⟨u, Nat.lt_of_lt_of_le hu hg.numUuids, ?_, ?_⟩
    · exact (hg.uuids u (Or.inl hu)).trans huuid
    · exact (hg.svcs i (Or.inl h.bound)).trans hrecord
  chrs := fun hpos => (h.chrs hpos).grows hg

theorem SvcsAt.grows {base s s' : State} {i c d : Nat} {seq : UInt32} {slot : Nat}
    {svcs : List Svc} (h : SvcsAt base s i c d seq slot svcs) (hg : Grows s s') :
    SvcsAt base s' i c d seq slot svcs := by
  induction svcs generalizing i c d seq slot with
  | nil => exact trivial
  | cons svc rest ih => exact ⟨h.1.grows hg, ih h.2⟩

theorem SvcAt.base {base base' s : State} {i c d : Nat} {seq : UInt32} {slot : Nat} {svc : Svc}
    (h : SvcAt base' s i c d seq slot svc) (hg : Grows base base') (hi : base'.numSvcs ≤ i)
    (hc : base'.numChrs ≤ c) (hd : base'.numDscs ≤ d) : SvcAt base s i c d seq slot svc where
  bound := h.bound
  record := by
    rw [← hg.svcs i (Or.inr hi)]
    exact h.record
  chrs := by
    intro hpos
    obtain ⟨hstored, hbound, hend⟩ := h.chrs hpos
    refine ⟨hstored.base ?_ ?_, hbound, hend.trans (hg.chrs _ (Or.inr (by omega)))⟩
    · intro j hj
      exact hg.chrs j (Or.inr (by omega))
    · intro j hj
      exact hg.dscs j (Or.inr (by omega))

theorem SvcsAt.base {base base' s : State} {i c d : Nat} {seq : UInt32} {slot : Nat}
    {svcs : List Svc} (h : SvcsAt base' s i c d seq slot svcs) (hg : Grows base base')
    (hi : base'.numSvcs ≤ i) (hc : base'.numChrs ≤ c) (hd : base'.numDscs ≤ d) :
    SvcsAt base s i c d seq slot svcs := by
  induction svcs generalizing i c d seq slot with
  | nil => exact trivial
  | cons svc rest ih =>
      exact ⟨h.1.base hg hi hc hd, ih h.2 (by omega) (by omega) (by omega)⟩

structure SvcsSaved (svcs : List Svc) (s s' : State) : Prop where
  grows : Grows s s'
  numSvcs : s'.numSvcs = s.numSvcs + svcs.length
  numChrs : s'.numChrs = s.numChrs + (svcs.map chrSlots).sum
  numDscs : s'.numDscs = s.numDscs + (svcs.map svcDscSlots).sum
  numUuids : s'.numUuids = s.numUuids + (svcs.map svcUuids).sum
  numValHandles : s'.numValHandles = s.numValHandles + (svcs.map (·.chrs.length)).sum
  stored : SvcsAt s s' s.numSvcs s.numChrs s.numDscs s.nextSeq s.numValHandles svcs

theorem Grows.endSvcs (s : State) : Grows s s.endSvcs :=
  { Grows.refl s with
    svcs := SameOutside.refl _ _ _
    numSvcs := Nat.le_succ _ }

theorem saveSvc_saved (svc : Svc) (s s' : State) (h : saveSvc svc s = .ok s') :
    SvcsSaved [svc] s s' ∧ s'.nextSeq = seqAfterChrs s.nextSeq svc.chrs := by
  obtain ⟨_, _, mid, hmid, rfl⟩ := (saveSvc_ok svc s s').mp h
  have hsaved := saveChrs_saved svc (s.putSvc svc) mid hmid
  have hsvcs : mid.svcs = (s.putSvc svc).svcs := by
    have hsame := hsaved.grows.svcs
    rw [hsaved.numSvcs] at hsame
    exact hsame.eq
  have hgrows : Grows s mid.endSvcs :=
    { svcs := by
        show SameOutside s.numSvcs (mid.numSvcs + 1) s.svcs mid.svcs
        rw [hsvcs, hsaved.numSvcs]
        exact SameOutside.update _ _ _
      chrs := hsaved.grows.chrs
      dscs := hsaved.grows.dscs
      uuids := (SameOutside.update s.uuids s.numUuids (.known svc.uuid)).trans hsaved.grows.uuids
        (Nat.le_succ _) hsaved.grows.numUuids
      numSvcs := Nat.le_succ_of_le hsaved.grows.numSvcs
      numChrs := hsaved.grows.numChrs
      numDscs := hsaved.grows.numDscs
      numUuids := Nat.le_of_succ_le hsaved.grows.numUuids
      numValHandles := hsaved.grows.numValHandles }
  refine ⟨⟨hgrows, congrArg Nat.succ hsaved.numSvcs, ?_, ?_, ?_, ?_, ⟨?_, trivial⟩⟩,
    hsaved.nextSeq⟩
  · simp only [List.map_cons, List.map_nil, List.sum_cons, List.sum_nil, Nat.add_zero]
    exact hsaved.numChrs
  · simp only [List.map_cons, List.map_nil, List.sum_cons, List.sum_nil, Nat.add_zero]
    exact hsaved.numDscs
  · have hnum : mid.numUuids + 1 = s.numUuids + 1 + svcUuids svc := hsaved.numUuids
    simp only [State.endSvcs, List.map_cons, List.map_nil, List.sum_cons, List.sum_nil]
    omega
  · simp only [List.map_cons, List.map_nil, List.sum_cons, List.sum_nil, Nat.add_zero]
    exact hsaved.numValHandles
  · refine ⟨?_, ⟨s.numUuids, hsaved.grows.numUuids, ?_, ?_⟩, ?_⟩
    · show s.numSvcs < mid.numSvcs + 1
      rw [hsaved.numSvcs]
      exact Nat.lt_succ_self _
    · have hsame := hsaved.grows.uuids s.numUuids (Or.inl (Nat.lt_succ_self _))
      exact hsame.trans (Function.update_self _ _ _)
    · show mid.svcs s.numSvcs = _
      rw [hsvcs]
      exact Function.update_self _ _ _
    · intro hpos
      have hstored := (hsaved.stored hpos).grows (Grows.endSvcs mid)
      exact ⟨hstored.1.base (fun _ _ => rfl) (fun _ _ => rfl), hstored.2⟩

theorem foldlM_saveSvc (svcs : List Svc) (s s' : State)
    (h : svcs.foldlM (fun s svc => saveSvc svc s) s = .ok s') : SvcsSaved svcs s s' := by
  induction svcs generalizing s with
  | nil =>
      obtain rfl : s = s' := Except.ok.inj h
      exact ⟨Grows.refl s, rfl, rfl, rfl, rfl, rfl, trivial⟩
  | cons svc rest ih =>
      obtain ⟨mid, hmid, hrest⟩ := (foldlM_cons_ok _ _ _ _ _).mp h
      obtain ⟨hfirst, hnextSeq⟩ := saveSvc_saved svc s mid hmid
      have hsaved := ih _ hrest
      have hnumSvcs : mid.numSvcs = s.numSvcs + 1 := hfirst.numSvcs
      have hnumChrs : mid.numChrs = s.numChrs + chrSlots svc := by simpa using hfirst.numChrs
      have hnumDscs : mid.numDscs = s.numDscs + svcDscSlots svc := by simpa using hfirst.numDscs
      have hnumUuids : mid.numUuids = s.numUuids + svcUuids svc := by simpa using hfirst.numUuids
      have hnumValHandles : mid.numValHandles = s.numValHandles + svc.chrs.length := by
        simpa using hfirst.numValHandles
      refine ⟨hfirst.grows.trans hsaved.grows, ?_, ?_, ?_, ?_, ?_,
        hfirst.stored.1.grows hsaved.grows, ?_⟩
      · rw [hsaved.numSvcs, hnumSvcs, List.length_cons]
        omega
      · rw [hsaved.numChrs, hnumChrs, List.map_cons, List.sum_cons]
        omega
      · rw [hsaved.numDscs, hnumDscs, List.map_cons, List.sum_cons]
        omega
      · rw [hsaved.numUuids, hnumUuids, List.map_cons, List.sum_cons]
        omega
      · rw [hsaved.numValHandles, hnumValHandles, List.map_cons, List.sum_cons]
        omega
      · rw [← hnumSvcs, ← hnumChrs, ← hnumDscs, ← hnextSeq, ← hnumValHandles]
        exact hsaved.stored.base hfirst.grows (Nat.le_refl _) (Nat.le_refl _) (Nat.le_refl _)

end Blehostd.Gatts
