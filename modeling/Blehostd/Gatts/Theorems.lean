import Mathlib.Data.List.Forall2
import Blehostd.Gatts.Reading

namespace Blehostd.Gatts

-- Requests that are all answered with status 0, with the tables they leave.
def AddsAccepted : State → List (List Svc) → State → Prop
  | s, [], s' => s = s'
  | s, request :: rest, s' => ∃ mid, addSvcs request s = .ok (0, mid) ∧ AddsAccepted mid rest s'

structure Added (svcs : List Svc) (s s' : State) : Prop where
  grows : Grows s s'
  within : Within s'
  numSvcs : s'.numSvcs = s.numSvcs + svcs.length + 1
  stored : SvcsAt s s' s.numSvcs s.numChrs s.numDscs s.nextSeq s.numValHandles svcs
  terminator : s'.svcs (s.numSvcs + svcs.length) = s.svcs (s.numSvcs + svcs.length)

theorem addSvcs_added (svcs : List Svc) (s s' : State) (h : addSvcs svcs s = .ok (0, s')) :
    Added svcs s s' := by
  have hwithin := addSvcs_within svcs s s' h
  obtain ⟨_, mid, hmid, _, rfl⟩ := (addSvcs_ok svcs s s').mp h
  have hsaved := foldlM_saveSvc svcs s mid hmid
  refine ⟨hsaved.grows.trans (Grows.endSvcs mid), hwithin, congrArg Nat.succ hsaved.numSvcs,
    hsaved.stored.grows (Grows.endSvcs mid), ?_⟩
  refine hsaved.grows.svcs _ (Or.inr ?_)
  rw [hsaved.numSvcs]

-- What every accepted request keeps holds after all of them.
theorem AddsAccepted.keeps {I : State → Prop}
    (hstep : ∀ request s next, I s → addSvcs request s = .ok (0, next) → I next)
    {s s' : State} {requests : List (List Svc)} (h : AddsAccepted s requests s') (hs : I s) :
    I s' := by
  induction requests generalizing s with
  | nil =>
      obtain rfl : s = s' := h
      exact hs
  | cons request rest ih =>
      obtain ⟨mid, hmid, hrest⟩ := h
      exact ih hrest (hstep request s mid hs hmid)

theorem AddsAccepted.grows {s s' : State} {requests : List (List Svc)}
    (h : AddsAccepted s requests s') : Grows s s' :=
  h.keeps (fun request mid next hmid hadd => hmid.trans (addSvcs_added request mid next hadd).grows)
    (Grows.refl s)

theorem AddsAccepted.stale {s s' : State} {requests : List (List Svc)}
    (h : AddsAccepted s requests s') (hs : Stale s) : Stale s' :=
  h.keeps (fun request mid next hmid hadd => addSvcs_stale request mid next hadd hmid) hs

theorem AddsAccepted.within {s s' : State} {requests : List (List Svc)}
    (h : AddsAccepted s requests s') (hw : Within s) : Within s' :=
  h.keeps (fun request mid next _ hadd => (addSvcs_added request mid next hadd).within) hw

-- All-zero tables are clean for every request.
theorem svcsClean_zeroed (nextSeq : UInt32) (svcs : List Svc) :
    SvcsClean (State.zeroed nextSeq) 0 0 0 svcs :=
  (fresh_zeroed nextSeq).svcsClean svcs (Nat.le_refl 0) (Nat.le_refl 0) (Nat.le_refl 0)

theorem within_zeroed (nextSeq : UInt32) : Within (State.zeroed nextSeq) :=
  ⟨Nat.zero_le _, Nat.zero_le _, Nat.zero_le _, Nat.zero_le _, Nat.zero_le _⟩

-- The host starts at slot 0, so it sees one request when the counters were 0.
theorem hostSvcs_iff (base s : State) (svcs : List Svc) (hi : base.numSvcs = 0)
    (hc : base.numChrs = 0) (hd : base.numDscs = 0) (hv : base.numValHandles = 0)
    (hadded : Added svcs base s) (hs : Stale s) :
    s.hostSvcs = some (svcNodesOf base.nextSeq 0 svcs) ↔
      SvcsClean base 0 0 0 svcs ∧ (base.svcs svcs.length).type = 0 := by
  have hstored := hadded.stored
  have hend := hadded.terminator
  have hnum := hadded.numSvcs
  have hmax := hadded.within.numSvcs
  rw [hi, hc, hd, hv] at hstored
  rw [hi, Nat.zero_add] at hend
  rw [State.hostSvcs, read_svcs_iff base s 0 0 0 _ base.nextSeq 0 svcs hstored hadded.within hs
    (by omega), Nat.zero_add, hend]

theorem hostSvcs_zeroed (nextSeq : UInt32) (s : State) (svcs : List Svc)
    (hadded : Added svcs (State.zeroed nextSeq) s) (hs : Stale s) :
    s.hostSvcs = some (svcNodesOf nextSeq 0 svcs) :=
  (hostSvcs_iff _ s svcs rfl rfl rfl rfl hadded hs).mpr ⟨svcsClean_zeroed _ _, rfl⟩

-- Later requests leave the first request's records as they are, with the
-- terminator after them.
theorem Added.later {svcs : List Svc} {base s s' : State} (h : Added svcs base s)
    (hg : Grows s s') (hw : Within s') :
    SvcsAt base s' base.numSvcs base.numChrs base.numDscs base.nextSeq base.numValHandles svcs ∧
      s'.svcs (base.numSvcs + svcs.length) = base.svcs (base.numSvcs + svcs.length) ∧
      base.numSvcs + svcs.length < BHD_GATTS_MAX_SVCS := by
  have hnum := h.numSvcs
  have hmax := hw.numSvcs
  have hmore := hg.numSvcs
  refine ⟨h.stored.grows hg, ?_, by omega⟩
  exact (hg.svcs _ (Or.inl (by omega))).trans h.terminator

theorem hostSvcs_first (nextSeq : UInt32) (first : List Svc) (rest : List (List Svc)) (s : State)
    (h : AddsAccepted (State.zeroed nextSeq) (first :: rest) s) :
    s.hostSvcs = some (svcNodesOf nextSeq 0 first) := by
  obtain ⟨mid, hmid, hrest⟩ := h
  have hadded := addSvcs_added first _ mid hmid
  have hstale := hrest.stale (addSvcs_stale first _ mid hmid (stale_zeroed nextSeq))
  have hwithin := hrest.within hadded.within
  obtain ⟨hstored, hend, hbound⟩ := hadded.later hrest.grows hwithin
  rw [State.hostSvcs, read_svcs_iff (State.zeroed nextSeq) s 0 0 0 _ nextSeq 0 first hstored
    hwithin hstale (by simpa [State.zeroed] using hbound)]
  exact ⟨svcsClean_zeroed _ _,
    by simpa [State.zeroed, SvcDef.zero] using congrArg SvcDef.type hend⟩

theorem dscNodesOf_describe (seq : UInt32) (dscs : List Dsc) :
    List.Forall₂ DscNode.Describes (dscNodesOf seq dscs) dscs := by
  induction dscs generalizing seq with
  | nil => exact List.Forall₂.nil
  | cons dsc rest ih => exact List.Forall₂.cons ⟨rfl, rfl, rfl, rfl⟩ (ih _)

theorem chrNodesOf_describe (seq : UInt32) (slot : Nat) (chrs : List Chr) :
    List.Forall₂ ChrNode.Describes (chrNodesOf seq slot chrs) chrs := by
  induction chrs generalizing seq slot with
  | nil => exact List.Forall₂.nil
  | cons chr rest ih =>
      exact List.Forall₂.cons ⟨rfl, rfl, rfl, rfl, dscNodesOf_describe _ _⟩ (ih _ _)

theorem svcNodesOf_describe (seq : UInt32) (slot : Nat) (svcs : List Svc) :
    List.Forall₂ SvcNode.Describes (svcNodesOf seq slot svcs) svcs := by
  induction svcs generalizing seq slot with
  | nil => exact List.Forall₂.nil
  | cons svc rest ih =>
      exact List.Forall₂.cons ⟨rfl, rfl, chrNodesOf_describe _ _ _⟩ (ih _ _)

-- The host reads exactly the services of all accepted requests.
def AllListed (requests : List (List Svc)) (s : State) : Prop :=
  ∃ tree, s.hostSvcs = some tree ∧ List.Forall₂ SvcNode.Describes tree requests.flatten

-- The host stops at the terminator of the first request, so what later
-- requests add is seen only if they add nothing.
theorem allListed_iff (nextSeq : UInt32) (requests : List (List Svc)) (s : State)
    (hne : requests ≠ []) (h : AddsAccepted (State.zeroed nextSeq) requests s) :
    AllListed requests s ↔ ∀ request ∈ requests.tail, request = [] := by
  cases requests with
  | nil => exact absurd rfl hne
  | cons first rest =>
      have htree := hostSvcs_first nextSeq first rest s h
      have hdescribe := svcNodesOf_describe nextSeq 0 first
      rw [List.tail_cons, ← List.flatten_eq_nil_iff]
      constructor
      · intro hall
        obtain ⟨tree, hread, hforall⟩ := hall
        obtain rfl : svcNodesOf nextSeq 0 first = tree := Option.some.inj (htree.symm.trans hread)
        have hlength := hforall.length_eq
        rw [List.flatten_cons, List.length_append, ← hdescribe.length_eq] at hlength
        exact List.length_eq_zero_iff.mp (by omega)
      · intro hempty
        refine ⟨_, htree, ?_⟩
        rw [List.flatten_cons, hempty, List.append_nil]
        exact hdescribe

def emptySvc (uuid : UInt16) : Svc := ⟨.primary, .u16 uuid, []⟩

-- Two services, with characteristics that have one, no and two descriptors.
def sensorSvcs (uuid : UInt16) : List Svc :=
  [⟨.primary, .u16 uuid, [⟨.u16 0x2a37, 0x10, 0, [⟨.known (.u16 0x2902), 3, 0⟩]⟩,
      ⟨.u16 0x2a38, 2, 0, []⟩]⟩,
    ⟨.secondary, .u16 0x180f, [⟨.u16 0x2a19, 2, 0,
      [⟨.known (.u16 0x2904), 1, 0⟩, ⟨.known (.u16 0x2901), 1, 0⟩]⟩]⟩]

theorem allListed_iff_sensor : ∃ s, AddsAccepted State.initial [sensorSvcs 0x180d, []] s ∧
    AllListed [sensorSvcs 0x180d, []] s := by
  have haccepted : ∃ s, AddsAccepted State.initial [sensorSvcs 0x180d, []] s :=
    ⟨_, _, rfl, _, rfl, rfl⟩
  obtain ⟨s, h⟩ := haccepted
  exact ⟨s, h, (allListed_iff _ _ _ (by simp) h).mpr (by simp)⟩

-- Two requests with one service each: the host lists the first service only.
theorem second_request_not_listed : ∃ s,
    AddsAccepted State.initial [[emptySvc 0x180d], [emptySvc 0x180f]] s ∧
      ¬AllListed [[emptySvc 0x180d], [emptySvc 0x180f]] s := by
  refine ⟨_, ⟨_, rfl, _, rfl, rfl⟩, ?_⟩
  intro hall
  obtain ⟨tree, hread, hforall⟩ := hall
  obtain rfl := Option.some.inj hread
  exact absurd hforall.length_eq (by decide)

theorem clearSvcs_stale (reset : Int) (s : State) (hs : Stale s) : Stale (clearSvcs reset s).2 :=
  ⟨hs.descriptors, hs.characteristics⟩

-- The tables that the request finds are zero in every slot it skips as a
-- terminator, and so are the pointers that it leaves alone.
def Clean (request : List Svc) (s : State) : Prop :=
  SvcsClean s 0 0 0 request ∧ (s.svcs request.length).type = 0

theorem addSvcs_zeroed (request : List Svc) (s s' : State)
    (h : addSvcs request (clearSvcs 0 s).2 = .ok (0, s')) :
    ∃ fresh, addSvcs request (State.zeroed s.nextSeq) = .ok (0, fresh) := by
  have hrc : verifyResourceCnt request (State.zeroed s.nextSeq) = 0 :=
    ((addSvcs_ok _ _ _).mp h).1
  rcases addSvcs_total request (State.zeroed s.nextSeq) with hrefused | haccepted
  · exact absurd hrc hrefused.1
  · exact haccepted

-- After a clear, the host reads for one more request the tree that the request
-- gives on all-zero tables with the same sequence counter, if and only if the
-- records left behind do not show through.
theorem cleared_tree_iff (nextSeq : UInt32) (requests : List (List Svc)) (request : List Svc)
    (s s' : State) (h : AddsAccepted (State.zeroed nextSeq) requests s)
    (hadd : addSvcs request (clearSvcs 0 s).2 = .ok (0, s')) :
    ∃ fresh, addSvcs request (State.zeroed s.nextSeq) = .ok (0, fresh) ∧
      (s'.hostSvcs = fresh.hostSvcs ↔ Clean request (clearSvcs 0 s).2) := by
  obtain ⟨fresh, hfresh⟩ := addSvcs_zeroed request s s' hadd
  have hstale : Stale (clearSvcs 0 s).2 := clearSvcs_stale 0 s (h.stale (stale_zeroed nextSeq))
  have htree : fresh.hostSvcs = some (svcNodesOf s.nextSeq 0 request) :=
    hostSvcs_zeroed _ _ _ (addSvcs_added _ _ _ hfresh)
      (addSvcs_stale _ _ _ hfresh (stale_zeroed s.nextSeq))
  refine ⟨fresh, hfresh, ?_⟩
  rw [htree]
  exact hostSvcs_iff _ s' request rfl rfl rfl rfl (addSvcs_added _ _ _ hadd)
    (addSvcs_stale _ _ _ hadd hstale)

-- Other services of the same shape take the slots of the old ones.
theorem cleared_tree_sensor : ∃ s s' fresh,
    AddsAccepted State.initial [sensorSvcs 0x180d] s ∧
      addSvcs (sensorSvcs 0x1809) (clearSvcs 0 s).2 = .ok (0, s') ∧
      addSvcs (sensorSvcs 0x1809) (State.zeroed s.nextSeq) = .ok (0, fresh) ∧
      s'.hostSvcs = fresh.hostSvcs := by
  have hrun : ∃ s s', AddsAccepted State.initial [sensorSvcs 0x180d] s ∧
      addSvcs (sensorSvcs 0x1809) (clearSvcs 0 s).2 = .ok (0, s') ∧
      Clean (sensorSvcs 0x1809) (clearSvcs 0 s).2 :=
    ⟨_, _, ⟨_, rfl, rfl⟩, rfl,
      ⟨⟨⟨rfl, rfl, trivial⟩, rfl⟩, ⟨⟨rfl, trivial⟩, rfl⟩, trivial⟩, rfl⟩
  obtain ⟨s, s', h, hadd, hclean⟩ := hrun
  obtain ⟨fresh, hfresh, hiff⟩ := cleared_tree_iff _ _ _ s s' h hadd
  exact ⟨s, s', fresh, h, hadd, hfresh, hiff.mpr hclean⟩

-- Two services, a clear, and one service: the second of the old services stands
-- where the new list should end, and the host goes on with it.
theorem old_service_shows_through : ∃ s s' fresh,
    AddsAccepted State.initial [[emptySvc 0x180d, emptySvc 0x180a]] s ∧
      addSvcs [emptySvc 0x180f] (clearSvcs 0 s).2 = .ok (0, s') ∧
      addSvcs [emptySvc 0x180f] (State.zeroed s.nextSeq) = .ok (0, fresh) ∧
      s'.hostSvcs ≠ fresh.hostSvcs := by
  refine ⟨_, _, _, ⟨_, rfl, rfl⟩, rfl, rfl, ?_⟩
  intro heq
  have hlength := congrArg (Option.map List.length) heq
  exact absurd hlength (by decide)

end Blehostd.Gatts
