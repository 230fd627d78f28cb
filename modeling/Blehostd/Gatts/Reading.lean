import Blehostd.Gatts.Capacity
import Blehostd.Library.Transition

namespace Blehostd.Gatts

-- A pointer that some slot holds, used or not, leads to a record with a uuid.
def DescriptorsStale (s : State) : Prop :=
  ∀ c p, (s.chrs c).descriptors = some p → (s.dscs p).uuid ≠ none

structure Stale (s : State) : Prop where
  descriptors : DescriptorsStale s
  characteristics : ∀ i p, (s.svcs i).characteristics = some p → (s.chrs p).uuid ≠ none

theorem stale_zeroed (nextSeq : UInt32) : Stale (State.zeroed nextSeq) where
  descriptors := by
    intro c p hp
    exact absurd hp (by simp [State.zeroed, ChrDef.zero])
  characteristics := by
    intro i p hp
    exact absurd hp (by simp [State.zeroed, SvcDef.zero])

-- No uuid pointer goes back to NULL.
structure KeepsUuids (s s' : State) : Prop where
  chrs : ∀ p, (s.chrs p).uuid ≠ none → (s'.chrs p).uuid ≠ none
  dscs : ∀ p, (s.dscs p).uuid ≠ none → (s'.dscs p).uuid ≠ none

theorem KeepsUuids.refl (s : State) : KeepsUuids s s :=
  ⟨fun _ hp => hp, fun _ hp => hp⟩

theorem KeepsUuids.trans {s s' s'' : State} (h : KeepsUuids s s') (h' : KeepsUuids s' s'') :
    KeepsUuids s s'' :=
  ⟨fun p hp => h'.chrs p (h.chrs p hp), fun p hp => h'.dscs p (h.dscs p hp)⟩

theorem update_uuid_ne_none {α : Type} (uuid : α → Option Nat) (t : Nat → α) (i : Nat) (record : α)
    (hrecord : uuid record ≠ none) (p : Nat) (hp : uuid (t p) ≠ none) :
    uuid (Function.update t i record p) ≠ none := by
  by_cases heq : p = i
  · subst heq
    rwa [Function.update_self]
  · rwa [Function.update_of_ne heq]

theorem keepsUuids_putDsc (dsc : Dsc) (s : State) : KeepsUuids s (s.putDsc dsc) where
  chrs := fun _ hp => hp
  dscs := update_uuid_ne_none DscDef.uuid s.dscs s.numDscs _ (by simp)

theorem keepsUuids_putChr (chr : Chr) (s : State) : KeepsUuids s (s.putChr chr) where
  chrs := update_uuid_ne_none ChrDef.uuid s.chrs s.numChrs _ (by simp)
  dscs := fun _ hp => hp

theorem foldlM_saveDsc_keeps (dscs : List Dsc) (s s' : State)
    (h : dscs.foldlM (fun s dsc => saveDsc dsc s) s = .ok s') : KeepsUuids s s' := by
  refine Transition.foldlM_keeps (fun mid dsc next hmid hnext => ?_) s s' dscs
    (KeepsUuids.refl s) h
  obtain ⟨_, _, rfl⟩ := (saveDsc_ok dsc mid next).mp hnext
  exact hmid.trans (keepsUuids_putDsc dsc mid)

theorem saveDscs_keeps (chr : Chr) (s s' : State)
    (h : (if 0 < chr.dscs.length then saveDscs chr.dscs s else .ok s) = .ok s') :
    KeepsUuids s s' := by
  rcases saveDscs_cases chr.dscs s s' h with ⟨_, mid, hmid, _, rfl⟩ | ⟨_, rfl⟩
  · have hkeeps := foldlM_saveDsc_keeps _ _ _ hmid
    exact ⟨hkeeps.chrs, hkeeps.dscs⟩
  · exact KeepsUuids.refl s'

theorem saveChr_keeps (chr : Chr) (s s' : State) (h : saveChr chr s = .ok s') :
    KeepsUuids s s' := by
  obtain ⟨_, _, _, mid, hmid, rfl⟩ := (saveChr_ok chr s s').mp h
  have hkeeps := (keepsUuids_putChr chr s).trans (saveDscs_keeps chr _ mid hmid)
  exact ⟨hkeeps.chrs, hkeeps.dscs⟩

theorem foldlM_saveChr_keeps (chrs : List Chr) (s s' : State)
    (h : chrs.foldlM (fun s chr => saveChr chr s) s = .ok s') : KeepsUuids s s' := by
  refine Transition.foldlM_keeps (fun mid chr next hmid hnext => ?_) s s' chrs
    (KeepsUuids.refl s) h
  exact hmid.trans (saveChr_keeps chr mid next hnext)

theorem DscsAt.head_uuid {s : State} {i : Nat} {nodes : List DscNode} (h : DscsAt s i nodes)
    (hpos : 0 < nodes.length) : (s.dscs i).uuid ≠ none := by
  cases nodes with
  | nil => exact absurd hpos (Nat.lt_irrefl 0)
  | cons node rest =>
      obtain ⟨⟨_, ⟨slot, _, huuid⟩, _⟩, _⟩ := h
      rw [huuid]
      simp

theorem ChrsAt.head_uuid {base s : State} {c d : Nat} {seq : UInt32} {slot : Nat}
    {chrs : List Chr} (h : ChrsAt base s c d seq slot chrs) (hpos : 0 < chrs.length) :
    (s.chrs c).uuid ≠ none := by
  cases chrs with
  | nil => exact absurd hpos (Nat.lt_irrefl 0)
  | cons chr rest =>
      obtain ⟨u, _, _, hrecord⟩ := h.1.record
      rw [hrecord]
      simp

-- Saving a characteristic writes one slot of the characteristics, whose pointer
-- leads to the first descriptor just saved or is the one that stood there.
theorem saveChr_stale (chr : Chr) (s s' : State) (h : saveChr chr s = .ok s')
    (hs : DescriptorsStale s) : DescriptorsStale s' := by
  have hsaved := saveChr_saved chr s s' h
  have hkeeps := saveChr_keeps chr s s' h
  have hnum : s'.numChrs = s.numChrs + 1 := hsaved.numChrs
  intro c p hp
  by_cases hc : c = s.numChrs
  · subst hc
    obtain ⟨u, _, _, hrecord⟩ := hsaved.stored.1.record
    rw [hrecord] at hp
    by_cases hlen : 0 < chr.dscs.length
    · obtain rfl : s.numDscs = p := by simpa [hlen] using hp
      refine (hsaved.stored.1.dscs hlen).1.head_uuid ?_
      rwa [length_dscNodesOf]
    · have hold : (s.chrs s.numChrs).descriptors = some p := by simpa [hlen] using hp
      exact hkeeps.dscs p (hs _ p hold)
  · have hsame : s'.chrs c = s.chrs c := hsaved.grows.chrs c (by omega)
    rw [hsame] at hp
    exact hkeeps.dscs p (hs c p hp)

theorem foldlM_saveChr_stale (chrs : List Chr) (s s' : State)
    (h : chrs.foldlM (fun s chr => saveChr chr s) s = .ok s') (hs : DescriptorsStale s) :
    DescriptorsStale s' :=
  Transition.foldlM_keeps (fun mid chr next hmid hnext => saveChr_stale chr mid next hnext hmid)
    s s' chrs hs h

theorem saveChrs_stale (svc : Svc) (s s' : State)
    (h : (if 0 < svc.chrs.length then saveChrs svc.chrs s else .ok s) = .ok s')
    (hs : DescriptorsStale s) : DescriptorsStale s' ∧ KeepsUuids s s' := by
  rcases saveChrs_cases svc.chrs s s' h with ⟨_, mid, hmid, _, rfl⟩ | ⟨_, rfl⟩
  · have hstale := foldlM_saveChr_stale _ _ _ hmid hs
    have hkeeps := foldlM_saveChr_keeps _ _ _ hmid
    exact ⟨hstale, hkeeps.chrs, hkeeps.dscs⟩
  · exact ⟨hs, KeepsUuids.refl s'⟩

theorem saveSvc_stale (svc : Svc) (s s' : State) (h : saveSvc svc s = .ok s') (hs : Stale s) :
    Stale s' := by
  obtain ⟨hsaved, _⟩ := saveSvc_saved svc s s' h
  obtain ⟨_, _, mid, hmid, rfl⟩ := (saveSvc_ok svc s s').mp h
  obtain ⟨hdescriptors, hkeeps⟩ := saveChrs_stale svc (s.putSvc svc) mid hmid hs.descriptors
  refine ⟨hdescriptors, ?_⟩
  intro i p hp
  by_cases hi : i = s.numSvcs
  · subst hi
    obtain ⟨u, _, _, hrecord⟩ := hsaved.stored.1.record
    rw [hrecord] at hp
    by_cases hlen : 0 < svc.chrs.length
    · obtain rfl : s.numChrs = p := by simpa [hlen] using hp
      exact (hsaved.stored.1.chrs hlen).1.head_uuid hlen
    · have hold : (s.svcs s.numSvcs).characteristics = some p := by simpa [hlen] using hp
      exact hkeeps.chrs p (hs.characteristics _ p hold)
  · have hnum : mid.endSvcs.numSvcs = s.numSvcs + 1 := hsaved.numSvcs
    have hsame : mid.endSvcs.svcs i = s.svcs i := hsaved.grows.svcs i (by omega)
    rw [hsame] at hp
    exact hkeeps.chrs p (hs.characteristics i p hp)

theorem foldlM_saveSvc_stale (svcs : List Svc) (s s' : State)
    (h : svcs.foldlM (fun s svc => saveSvc svc s) s = .ok s') (hs : Stale s) : Stale s' :=
  Transition.foldlM_keeps (fun mid svc next hmid hnext => saveSvc_stale svc mid next hnext hmid)
    s s' svcs hs h

theorem addSvcs_stale (svcs : List Svc) (s s' : State) (h : addSvcs svcs s = .ok (0, s'))
    (hs : Stale s) : Stale s' := by
  obtain ⟨_, mid, hmid, _, rfl⟩ := (addSvcs_ok svcs s s').mp h
  have hstale := foldlM_saveSvc_stale svcs s mid hmid hs
  exact ⟨hstale.descriptors, hstale.characteristics⟩

-- What the base state has to hold so that the host reads back exactly what was
-- saved: the skipped slots end their lists, and the pointers left alone are NULL.
def ChrClean (base : State) (c d : Nat) (chr : Chr) : Prop :=
  if 0 < chr.dscs.length then (base.dscs (d + chr.dscs.length)).uuid = none
  else (base.chrs c).descriptors = none

def ChrsClean (base : State) : Nat → Nat → List Chr → Prop
  | _, _, [] => True
  | c, d, chr :: rest => ChrClean base c d chr ∧ ChrsClean base (c + 1) (d + dscSlots chr) rest

def SvcClean (base : State) (i c d : Nat) (svc : Svc) : Prop :=
  if 0 < svc.chrs.length then
    ChrsClean base c d svc.chrs ∧ (base.chrs (c + svc.chrs.length)).uuid = none
  else (base.svcs i).characteristics = none

def SvcsClean (base : State) : Nat → Nat → Nat → List Svc → Prop
  | _, _, _, [] => True
  | i, c, d, svc :: rest =>
      SvcClean base i c d svc ∧
        SvcsClean base (i + 1) (c + chrSlots svc) (d + svcDscSlots svc) rest

-- Nothing has been stored from the counters on.
structure Fresh (s : State) : Prop where
  svcs : ∀ i, s.numSvcs ≤ i → s.svcs i = SvcDef.zero
  chrs : ∀ i, s.numChrs ≤ i → s.chrs i = ChrDef.zero
  dscs : ∀ i, s.numDscs ≤ i → s.dscs i = DscDef.zero

theorem fresh_zeroed (nextSeq : UInt32) : Fresh (State.zeroed nextSeq) :=
  ⟨fun _ _ => rfl, fun _ _ => rfl, fun _ _ => rfl⟩

theorem Fresh.grows {s s' : State} (h : Fresh s) (hg : Grows s s') : Fresh s' where
  svcs i hi := (hg.svcs i (Or.inr hi)).trans (h.svcs i (Nat.le_trans hg.numSvcs hi))
  chrs i hi := (hg.chrs i (Or.inr hi)).trans (h.chrs i (Nat.le_trans hg.numChrs hi))
  dscs i hi := (hg.dscs i (Or.inr hi)).trans (h.dscs i (Nat.le_trans hg.numDscs hi))

theorem Fresh.chrClean {base : State} (h : Fresh base) {c d : Nat} (chr : Chr)
    (hc : base.numChrs ≤ c) (hd : base.numDscs ≤ d) : ChrClean base c d chr := by
  unfold ChrClean
  split
  · rw [h.dscs _ (Nat.le_add_right_of_le hd)]
    rfl
  · rw [h.chrs c hc]
    rfl

theorem Fresh.chrsClean {base : State} (h : Fresh base) {c d : Nat} (chrs : List Chr)
    (hc : base.numChrs ≤ c) (hd : base.numDscs ≤ d) : ChrsClean base c d chrs := by
  induction chrs generalizing c d with
  | nil => exact trivial
  | cons chr rest ih =>
      exact ⟨h.chrClean chr hc hd, ih (Nat.le_succ_of_le hc) (Nat.le_add_right_of_le hd)⟩

theorem Fresh.svcClean {base : State} (h : Fresh base) {i c d : Nat} (svc : Svc)
    (hi : base.numSvcs ≤ i) (hc : base.numChrs ≤ c) (hd : base.numDscs ≤ d) :
    SvcClean base i c d svc := by
  unfold SvcClean
  split
  · refine ⟨h.chrsClean _ hc hd, ?_⟩
    rw [h.chrs _ (Nat.le_add_right_of_le hc)]
    rfl
  · rw [h.svcs i hi]
    rfl

theorem Fresh.svcsClean {base : State} (h : Fresh base) {i c d : Nat} (svcs : List Svc)
    (hi : base.numSvcs ≤ i) (hc : base.numChrs ≤ c) (hd : base.numDscs ≤ d) :
    SvcsClean base i c d svcs := by
  induction svcs generalizing i c d with
  | nil => exact trivial
  | cons svc rest ih =>
      exact ⟨h.svcClean svc hi hc hd, ih (Nat.le_succ_of_le hi) (Nat.le_add_right_of_le hc)
        (Nat.le_add_right_of_le hd)⟩

theorem read_dscs_iff (s : State) (i left : Nat) (nodes : List DscNode) (h : DscsAt s i nodes)
    (hleft : nodes.length < left) :
    SlotTable.read (fun dsc : DscDef => dsc.uuid.isNone) (fun dsc => some (s.dscNode dsc)) s.dscs
      left i = some nodes ↔ (s.dscs (i + nodes.length)).uuid = none := by
  induction nodes generalizing i left with
  | nil =>
      rw [SlotTable.read_nil_iff]
      simp only [List.length_nil] at hleft
      simp [hleft]
  | cons node rest ih =>
      obtain ⟨⟨_, ⟨slot, _, huuid⟩, hnode⟩, hrest⟩ := h
      obtain ⟨left, rfl⟩ : ∃ n, left = n + 1 := ⟨left - 1, by simp at hleft; omega⟩
      rw [SlotTable.read_cons_iff _ _ _ _ _ _ _ (by simp [huuid]),
        ih (i + 1) left hrest (by simp at hleft; omega)]
      simp [hnode, Nat.add_assoc, Nat.add_comm 1]

theorem hostDscs_iff (s : State) (d : Nat) (nodes : List DscNode) (hw : Within s)
    (h : DscsAt s d nodes) (hbound : d + nodes.length < s.numDscs) :
    s.hostDscs (some d) = some nodes ↔ (s.dscs (d + nodes.length)).uuid = none := by
  have hmax := hw.numDscs
  exact read_dscs_iff s d _ nodes h (by omega)

-- A pointer that should have been NULL never leads to an empty list.
theorem hostDscs_nil_iff (s : State) (p : Option Nat) (hs : ∀ i, p = some i →
    (s.dscs i).uuid ≠ none) : s.hostDscs p = some [] ↔ p = none := by
  cases p with
  | none => simp [State.hostDscs]
  | some i =>
      have huuid := hs i rfl
      simp [State.hostDscs, SlotTable.read_nil_iff, huuid]

theorem chrNode_iff (base s : State) (c d : Nat) (seq : UInt32) (slot : Nat) (chr : Chr)
    (h : ChrAt base s c d seq slot chr) (hw : Within s) (hs : Stale s) :
    s.chrNode (s.chrs c) = some (chrNodeOf seq slot chr) ↔ ChrClean base c d chr := by
  obtain ⟨u, _, huuid, hrecord⟩ := h.record
  have hnode : s.chrNode (s.chrs c) = some (chrNodeOf seq slot chr) ↔
      s.hostDscs (s.chrs c).descriptors = some (dscNodesOf (succSeq seq) chr.dscs) := by
    simp [State.chrNode, chrNodeOf, hrecord, huuid]
  rw [hnode]
  by_cases hlen : 0 < chr.dscs.length
  · obtain ⟨hstored, hbound, hend⟩ := h.dscs hlen
    have hpointer : (s.chrs c).descriptors = some d := by simp [hrecord, hlen]
    rw [hpointer, hostDscs_iff s d _ hw hstored hbound, hend, length_dscNodesOf, ChrClean,
      if_pos hlen]
  · have hnil : chr.dscs = [] := List.length_eq_zero_iff.mp (by omega)
    have hpointer : (s.chrs c).descriptors = (base.chrs c).descriptors := by simp [hrecord, hlen]
    rw [hnil, dscNodesOf, hostDscs_nil_iff s _ (hs.descriptors c), hpointer, ChrClean,
      if_neg hlen]

theorem read_chrs_iff (base s : State) (c d left : Nat) (seq : UInt32) (slot : Nat)
    (chrs : List Chr) (h : ChrsAt base s c d seq slot chrs) (hw : Within s) (hs : Stale s)
    (hleft : chrs.length < left) :
    SlotTable.read (fun chr : ChrDef => chr.uuid.isNone) s.chrNode s.chrs left c =
      some (chrNodesOf seq slot chrs) ↔
        ChrsClean base c d chrs ∧ (s.chrs (c + chrs.length)).uuid = none := by
  induction chrs generalizing c d left seq slot with
  | nil =>
      rw [chrNodesOf, SlotTable.read_nil_iff]
      simp only [List.length_nil] at hleft
      simp [hleft, ChrsClean]
  | cons chr rest ih =>
      obtain ⟨hfirst, hrest⟩ := h
      obtain ⟨u, _, _, hrecord⟩ := hfirst.record
      obtain ⟨left, rfl⟩ : ∃ n, left = n + 1 := ⟨left - 1, by simp at hleft; omega⟩
      rw [chrNodesOf, SlotTable.read_cons_iff _ _ _ _ _ _ _ (by simp [hrecord]),
        chrNode_iff base s c d seq slot chr hfirst hw hs,
        ih (c + 1) _ left _ _ hrest (by simp at hleft; omega)]
      simp [ChrsClean, and_assoc, Nat.add_assoc, Nat.add_comm 1]

theorem hostChrs_iff (base s : State) (c d : Nat) (seq : UInt32) (slot : Nat) (chrs : List Chr)
    (h : ChrListAt base s c d seq slot chrs) (hw : Within s) (hs : Stale s) :
    s.hostChrs (some c) = some (chrNodesOf seq slot chrs) ↔
      ChrsClean base c d chrs ∧ (base.chrs (c + chrs.length)).uuid = none := by
  obtain ⟨hstored, hbound, hend⟩ := h
  have hmax := hw.numChrs
  rw [← hend]
  exact read_chrs_iff base s c d _ seq slot chrs hstored hw hs (by omega)

theorem hostChrs_nil_iff (s : State) (p : Option Nat) (hs : ∀ i, p = some i →
    (s.chrs i).uuid ≠ none) : s.hostChrs p = some [] ↔ p = none := by
  cases p with
  | none => simp [State.hostChrs]
  | some i =>
      have huuid := hs i rfl
      simp [State.hostChrs, SlotTable.read_nil_iff, huuid]

theorem svcNode_iff (base s : State) (i c d : Nat) (seq : UInt32) (slot : Nat) (svc : Svc)
    (h : SvcAt base s i c d seq slot svc) (hw : Within s) (hs : Stale s) :
    s.svcNode (s.svcs i) = some (svcNodeOf seq slot svc) ↔ SvcClean base i c d svc := by
  obtain ⟨u, _, huuid, hrecord⟩ := h.record
  have hnode : s.svcNode (s.svcs i) = some (svcNodeOf seq slot svc) ↔
      s.hostChrs (s.svcs i).characteristics = some (chrNodesOf seq slot svc.chrs) := by
    simp [State.svcNode, svcNodeOf, hrecord, huuid]
  rw [hnode]
  by_cases hlen : 0 < svc.chrs.length
  · have hpointer : (s.svcs i).characteristics = some c := by simp [hrecord, hlen]
    rw [hpointer, hostChrs_iff base s c d seq slot svc.chrs (h.chrs hlen) hw hs, SvcClean,
      if_pos hlen]
  · have hnil : svc.chrs = [] := List.length_eq_zero_iff.mp (by omega)
    have hpointer : (s.svcs i).characteristics = (base.svcs i).characteristics := by
      simp [hrecord, hlen]
    rw [hnil, chrNodesOf, hostChrs_nil_iff s _ (hs.characteristics i), hpointer, SvcClean,
      if_neg hlen]

theorem code_ne_zero (type : SvcType) : type.code ≠ 0 := by
  cases type <;> decide

theorem read_svcs_iff (base s : State) (i c d left : Nat) (seq : UInt32) (slot : Nat)
    (svcs : List Svc) (h : SvcsAt base s i c d seq slot svcs) (hw : Within s) (hs : Stale s)
    (hleft : svcs.length < left) :
    SlotTable.read (fun svc : SvcDef => svc.type == 0) s.svcNode s.svcs left i =
      some (svcNodesOf seq slot svcs) ↔
        SvcsClean base i c d svcs ∧ (s.svcs (i + svcs.length)).type = 0 := by
  induction svcs generalizing i c d left seq slot with
  | nil =>
      rw [svcNodesOf, SlotTable.read_nil_iff]
      simp only [List.length_nil] at hleft
      simp [hleft, SvcsClean]
  | cons svc rest ih =>
      obtain ⟨hfirst, hrest⟩ := h
      obtain ⟨u, _, _, hrecord⟩ := hfirst.record
      obtain ⟨left, rfl⟩ : ∃ n, left = n + 1 := ⟨left - 1, by simp at hleft; omega⟩
      rw [svcNodesOf, SlotTable.read_cons_iff _ _ _ _ _ _ _ (by simp [hrecord, code_ne_zero]),
        svcNode_iff base s i c d seq slot svc hfirst hw hs,
        ih (i + 1) _ _ left _ _ hrest (by simp at hleft; omega)]
      simp [SvcsClean, and_assoc, Nat.add_assoc, Nat.add_comm 1]

end Blehostd.Gatts
