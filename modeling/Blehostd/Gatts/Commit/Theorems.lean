import Blehostd.Gatts.Listing
import Blehostd.Gatts.Theorems

namespace Blehostd.Gatts

open SlotTable (SameOutside)

-- The host writes the value handles only.
theorem Grows.setValHandles (s : State) (valHandles : Nat → UInt16) :
    Grows s { s with valHandles := valHandles } :=
  { Grows.refl s with }

def listedChrs (valHandles : Nat → UInt16) : Nat → List Chr → List ListedChr
  | _, [] => []
  | slot, chr :: rest => ⟨chr.uuid, valHandles slot⟩ :: listedChrs valHandles (slot + 1) rest

def listedSvcs (valHandles : Nat → UInt16) : Nat → List Svc → List ListedSvc
  | _, [] => []
  | slot, svc :: rest =>
      ⟨svc.uuid, listedChrs valHandles slot svc.chrs⟩ ::
        listedSvcs valHandles (slot + svc.chrs.length) rest

theorem listedSvcs_length (valHandles : Nat → UInt16) (slot : Nat) (svcs : List Svc) :
    (listedSvcs valHandles slot svcs).length = svcs.length := by
  induction svcs generalizing slot with
  | nil => rfl
  | cons svc rest ih => rw [listedSvcs, List.length_cons, List.length_cons, ih]

theorem listsChr_stored (base s : State) (c d : Nat) (seq : UInt32) (slot : Nat) (chr : Chr)
    (h : ChrAt base s c d seq slot chr) (hw : Within s) :
    ListsChr s c ⟨chr.uuid, s.valHandles slot⟩ := by
  obtain ⟨u, _, huuid, hrecord⟩ := h.record
  have hslot : slot < BHD_GATTS_MAX_VAL_HANDLES := Nat.lt_of_lt_of_le h.slotBound hw.numValHandles
  exact ⟨⟨u, by rw [hrecord], huuid⟩, ⟨slot, by rw [hrecord], hslot, rfl⟩⟩

theorem listsChrs_stored (base s : State) (c d : Nat) (seq : UInt32) (slot : Nat)
    (chrs : List Chr) (h : ChrsAt base s c d seq slot chrs) (hw : Within s)
    (hend : (s.chrs (c + chrs.length)).uuid = none)
    (hlt : c + chrs.length < BHD_GATTS_MAX_CHRS) :
    ListsChrs s c (listedChrs s.valHandles slot chrs) := by
  induction chrs generalizing c d seq slot with
  | nil => exact ⟨hlt, hend⟩
  | cons chr rest ih =>
      rw [List.length_cons] at hend hlt
      refine ⟨listsChr_stored base s c d seq slot chr h.1 hw, ih (c + 1) _ _ _ h.2 ?_ (by omega)⟩
      rw [← hend]
      congr 2
      omega

theorem listsSvc_stored (base s : State) (i c d : Nat) (seq : UInt32) (slot : Nat) (svc : Svc)
    (h : SvcAt base s i c d seq slot svc) (hw : Within s) (hlen : 0 < svc.chrs.length)
    (hend : (base.chrs (c + svc.chrs.length)).uuid = none) :
    ListsSvc s i ⟨svc.uuid, listedChrs s.valHandles slot svc.chrs⟩ := by
  obtain ⟨u, _, huuid, hrecord⟩ := h.record
  obtain ⟨hstored, hbound, hsame⟩ := h.chrs hlen
  have hmax := hw.numChrs
  have hchrs := listsChrs_stored base s c d seq slot svc.chrs hstored hw
    (by rw [hsame]; exact hend) (by omega)
  exact ⟨⟨u, by rw [hrecord], huuid⟩, ⟨c, by simp [hrecord, hlen], hchrs⟩⟩

theorem listsSvcs_stored (nextSeq : UInt32) (s : State) (i c d : Nat) (seq : UInt32) (slot : Nat)
    (svcs : List Svc) (h : SvcsAt (State.zeroed nextSeq) s i c d seq slot svcs) (hw : Within s)
    (hfull : ∀ svc ∈ svcs, svc.chrs ≠ []) :
    ListsSvcs s i (listedSvcs s.valHandles slot svcs) := by
  induction svcs generalizing i c d seq slot with
  | nil => trivial
  | cons svc rest ih =>
      have hlen : 0 < svc.chrs.length := List.length_pos_iff.mpr (hfull svc (by simp))
      refine ⟨listsSvc_stored _ s i c d seq slot svc h.1 hw hlen rfl, ih (i + 1) _ _ _ _ h.2 ?_⟩
      intro other hmem
      exact hfull other (by simp [hmem])

-- The pointer of a service without characteristics is followed all the same.
theorem commitSvc_null (env : CommitEnv) (base s : State) (i c d : Nat) (seq : UInt32)
    (slot : Nat) (svc : Svc) (h : SvcAt base s i c d seq slot svc) (hnil : svc.chrs = [])
    (hnull : (base.svcs i).characteristics = none) :
    commitSvc env s i = .error .nullPointer := by
  obtain ⟨u, _, huuid, hrecord⟩ := h.record
  simp only [commitSvc, hrecord, hnil, List.length_nil, Nat.lt_irrefl, ite_false, hnull,
    derefUuid, bind, Except.bind]

theorem commitLoop_null (env : CommitEnv) (nextSeq : UInt32) (s : State) (i c d : Nat)
    (seq : UInt32) (slot : Nat) (svcs : List Svc)
    (h : SvcsAt (State.zeroed nextSeq) s i c d seq slot svcs) (hw : Within s)
    (halloc : ∀ si, env.callocChrs si = true) (hempty : ∃ svc ∈ svcs, svc.chrs = []) :
    commitLoop env s svcs.length i = .error .nullPointer := by
  induction svcs generalizing i c d seq slot with
  | nil => exact absurd hempty (by simp)
  | cons svc rest ih =>
      obtain ⟨hfirst, hrest⟩ := h
      rw [List.length_cons, commitLoop]
      by_cases hnil : svc.chrs = []
      · rw [commitSvc_null env _ s i c d seq slot svc hfirst hnil rfl]
        rfl
      · have hlater : ∃ svc ∈ rest, svc.chrs = [] := by
          obtain ⟨other, hmem, hother⟩ := hempty
          rcases List.mem_cons.mp hmem with rfl | hmem
          · exact absurd hother hnil
          · exact ⟨other, hmem, hother⟩
        have hlen : 0 < svc.chrs.length := List.length_pos_iff.mpr hnil
        have hlists := listsSvc_stored _ s i c d seq slot svc hfirst hw hlen rfl
        rw [commitSvc_lists env s i _ hlists (halloc i)]
        simp only [bind, Except.bind, ih (i + 1) _ _ _ _ hrest hlater]

-- An entry of the response reports the node that the host has read.
def CommitChr.Reports (valHandles : Nat → UInt16) (entry : CommitChr) (node : ChrNode) : Prop :=
  node.uuid = some entry.uuid ∧ (∃ slot, node.valHandle = some slot ∧
    entry.valHandle = valHandles slot) ∧ entry.defHandle = entry.valHandle - 1

def CommitSvc.Reports (valHandles : Nat → UInt16) (entry : CommitSvc) (node : SvcNode) : Prop :=
  node.uuid = some entry.uuid ∧
    List.Forall₂ (CommitChr.Reports valHandles) entry.chrs node.chrs

theorem listedChrs_report (valHandles : Nat → UInt16) (seq : UInt32) (slot : Nat)
    (chrs : List Chr) : List.Forall₂ (CommitChr.Reports valHandles)
      ((listedChrs valHandles slot chrs).map ListedChr.entry) (chrNodesOf seq slot chrs) := by
  induction chrs generalizing seq slot with
  | nil => exact List.Forall₂.nil
  | cons chr rest ih => exact List.Forall₂.cons ⟨rfl, ⟨slot, rfl, rfl⟩, rfl⟩ (ih _ _)

theorem listedSvcs_report (valHandles : Nat → UInt16) (seq : UInt32) (slot : Nat)
    (svcs : List Svc) : List.Forall₂ (CommitSvc.Reports valHandles)
      ((listedSvcs valHandles slot svcs).map ListedSvc.entry) (svcNodesOf seq slot svcs) := by
  induction svcs generalizing seq slot with
  | nil => exact List.Forall₂.nil
  | cons svc rest ih =>
      exact List.Forall₂.cons ⟨rfl, listedChrs_report valHandles seq slot svc.chrs⟩ (ih _ _)

structure CommitEnv.Succeeds (env : CommitEnv) : Prop where
  countCfg : env.countCfg = 0
  addSvcs : env.addSvcs = 0
  start : env.start = 0
  callocSvcs : env.callocSvcs = true
  callocChrs : ∀ si, env.callocChrs si = true

-- The commit completes and its response lists the services in order, as the
-- host has registered them.
def CommitReports (env : CommitEnv) (svcs : List Svc) (s : State) : Prop :=
  ∃ rsp s' tree, commitSvcs env s = .ok (rsp, s') ∧ rsp.status = 0 ∧
    s.hostSvcs = some tree ∧ List.Forall₂ SvcNode.Describes tree svcs ∧
    List.Forall₂ (CommitSvc.Reports env.valHandles) rsp.svcs tree

-- The cleanup loop looks at one entry more than the loop has made room for.
theorem commitListing_none (env : CommitEnv) (s : State) (hpos : 0 < s.numSvcs)
    (h : commitLoop env s (s.numSvcs - 1) 0 = .ok none) :
    commitListing env s = .error .outOfBounds := by
  have hbound : ¬s.numSvcs ≤ s.numSvcs - 1 := by omega
  simp only [commitListing, h, freeChrs, require, hbound, if_false, bind, Except.bind]

-- So only a full listing is answered.
theorem commitListing_iff (env : CommitEnv) (s : State) (hpos : 0 < s.numSvcs)
    (result : CommitRsp × State) : commitListing env s = .ok result ↔
      ∃ svcs, commitLoop env s (s.numSvcs - 1) 0 = .ok (some svcs) ∧ result = (⟨0, svcs⟩, s) := by
  cases hloop : commitLoop env s (s.numSvcs - 1) 0 with
  | error fault => simp [commitListing, hloop, bind, Except.bind]
  | ok listed =>
      cases listed with
      | none => simp [commitListing_none env s hpos hloop]
      | some svcs => simp [commitListing, hloop, bind, Except.bind, eq_comm]

-- The host takes the three calls, and there is memory for the services.
structure CommitEnv.Starts (env : CommitEnv) : Prop where
  countCfg : env.countCfg = 0
  addSvcs : env.addSvcs = 0
  start : env.start = 0
  callocSvcs : env.callocSvcs = true

theorem CommitEnv.Succeeds.starts {env : CommitEnv} (h : env.Succeeds) : env.Starts :=
  ⟨h.countCfg, h.addSvcs, h.start, h.callocSvcs⟩

theorem commitSvcs_starts (env : CommitEnv) (s : State) (hstarts : env.Starts)
    (hpos : 0 < s.numSvcs) :
    commitSvcs env s = commitListing env { s with valHandles := env.valHandles } := by
  have hne : s.numSvcs ≠ 0 := by omega
  simp only [commitSvcs, hstarts.countCfg, hstarts.addSvcs, hstarts.start, hstarts.callocSvcs,
    ne_eq, not_true_eq_false, and_false, ite_false, hne, or_self, Bool.true_eq_false]

theorem commitSvcs_iff (env : CommitEnv) (s : State) (hstarts : env.Starts) (hpos : 0 < s.numSvcs)
    (result : CommitRsp × State) : commitSvcs env s = .ok result ↔
      ∃ svcs, commitLoop env { s with valHandles := env.valHandles } (s.numSvcs - 1) 0 =
        .ok (some svcs) ∧ result = (⟨0, svcs⟩, { s with valHandles := env.valHandles }) := by
  rw [commitSvcs_starts env s hstarts hpos]
  exact commitListing_iff env { s with valHandles := env.valHandles } hpos result

-- One request on empty tables, after the host has written its value handles.
theorem addSvcs_stored (svcs : List Svc) (nextSeq : UInt32) (s : State)
    (valHandles : Nat → UInt16) (h : addSvcs svcs (State.zeroed nextSeq) = .ok (0, s)) :
    Within { s with valHandles := valHandles } ∧
      SvcsAt (State.zeroed nextSeq) { s with valHandles := valHandles } 0 0 0 nextSeq 0 svcs := by
  have hadded := addSvcs_added svcs _ s h
  refine ⟨?_, hadded.stored.grows (Grows.setValHandles s valHandles)⟩
  exact ⟨hadded.within.numSvcs, hadded.within.numChrs, hadded.within.numDscs,
    hadded.within.numUuids, hadded.within.numValHandles⟩

theorem listsSvcs_added (svcs : List Svc) (nextSeq : UInt32) (s : State) (valHandles : Nat → UInt16)
    (h : addSvcs svcs (State.zeroed nextSeq) = .ok (0, s)) (hfull : ∀ svc ∈ svcs, svc.chrs ≠ []) :
    ListsSvcs { s with valHandles := valHandles } 0 (listedSvcs valHandles 0 svcs) := by
  obtain ⟨hwithin, hstored⟩ := addSvcs_stored svcs nextSeq s valHandles h
  exact listsSvcs_stored nextSeq _ 0 0 0 nextSeq 0 svcs hstored hwithin hfull

theorem numSvcs_added (svcs : List Svc) (nextSeq : UInt32) (s : State)
    (h : addSvcs svcs (State.zeroed nextSeq) = .ok (0, s)) : s.numSvcs = svcs.length + 1 := by
  rw [(addSvcs_added svcs _ s h).numSvcs]
  simp [State.zeroed]

theorem commitReports_iff (env : CommitEnv) (nextSeq : UInt32) (svcs : List Svc) (s : State)
    (hok : env.Succeeds) (h : addSvcs svcs (State.zeroed nextSeq) = .ok (0, s)) :
    CommitReports env svcs s ↔ ∀ svc ∈ svcs, svc.chrs ≠ [] := by
  have hnum := numSvcs_added svcs nextSeq s h
  have hlast : s.numSvcs - 1 = svcs.length := by omega
  have hpos : 0 < s.numSvcs := by omega
  constructor
  · intro hreports
    obtain ⟨rsp, s', _, hdone, _⟩ := hreports
    by_contra hempty
    have hnil : ∃ svc ∈ svcs, svc.chrs = [] := by simpa using hempty
    obtain ⟨hwithin, hstored⟩ := addSvcs_stored svcs nextSeq s env.valHandles h
    have hloop := commitLoop_null env nextSeq _ 0 0 0 nextSeq 0 svcs hstored hwithin
      hok.callocChrs hnil
    rw [← hlast] at hloop
    obtain ⟨listed, hlisted, _⟩ := (commitSvcs_iff env s hok.starts hpos _).mp hdone
    rw [hloop] at hlisted
    cases hlisted
  · intro hfull
    have hlists := listsSvcs_added svcs nextSeq s env.valHandles h hfull
    have hloop := commitLoop_lists env _ 0 _ hlists fun si _ _ => hok.callocChrs si
    rw [listedSvcs_length, ← hlast] at hloop
    have htree := hostSvcs_zeroed nextSeq s svcs (addSvcs_added svcs _ s h)
      (addSvcs_stale svcs _ s h (stale_zeroed nextSeq))
    have hcommit := (commitSvcs_iff env s hok.starts hpos _).mpr ⟨_, hloop, rfl⟩
    exact ⟨_, _, _, hcommit, rfl, htree,
      svcNodesOf_describe nextSeq 0 svcs, listedSvcs_report env.valHandles nextSeq 0 svcs⟩

def allSucceed : CommitEnv :=
  ⟨0, 0, 0, fun slot => UInt16.ofNat (3 + 2 * slot), true, fun _ => true⟩

theorem allSucceed_succeeds : allSucceed.Succeeds :=
  ⟨rfl, rfl, rfl, rfl, fun _ => rfl⟩

def battery : Svc := ⟨.primary, .u16 0x180f, [⟨.u16 0x2a19, 2, 0, []⟩]⟩

theorem commitReports_battery : ∃ s, addSvcs [battery] State.initial = .ok (0, s) ∧
    CommitReports allSucceed [battery] s := by
  have haccepted : ∃ s, addSvcs [battery] State.initial = .ok (0, s) := ⟨_, rfl⟩
  obtain ⟨s, h⟩ := haccepted
  exact ⟨s, h, (commitReports_iff _ _ _ s allSucceed_succeeds h).mpr (by decide)⟩

-- A service without characteristics: the commit reads through the NULL pointer.
theorem empty_service_commit_faults : ∃ s, addSvcs [emptySvc 0x180f] State.initial = .ok (0, s) ∧
    commitSvcs allSucceed s = .error .nullPointer ∧
    ¬CommitReports allSucceed [emptySvc 0x180f] s := by
  have hrun : ∃ s, addSvcs [emptySvc 0x180f] State.initial = .ok (0, s) ∧
      commitSvcs allSucceed s = .error .nullPointer := ⟨_, rfl, rfl⟩
  obtain ⟨s, h, hfault⟩ := hrun
  refine ⟨s, h, hfault, ?_⟩
  intro hreports
  obtain ⟨rsp, s', _, hdone, _⟩ := hreports
  rw [hfault] at hdone
  exact absurd hdone (by simp)

end Blehostd.Gatts
