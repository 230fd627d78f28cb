import Blehostd.Gatts.Numbering
import Blehostd.Gatts.Theorems

namespace Blehostd.Gatts

open SlotTable (Allotted SameOutside)

-- A record of one of the three tables of definitions.
inductive Record where
  | svc (i : Nat)
  | chr (i : Nat)
  | dsc (i : Nat)
deriving DecidableEq, Repr

def State.uuidSlot (s : State) : Record → Option Nat
  | .svc i => (s.svcs i).uuid
  | .chr i => (s.chrs i).uuid
  | .dsc i => (s.dscs i).uuid

def State.valHandleSlot (s : State) (i : Nat) : Option Nat :=
  (s.chrs i).valHandle

-- No slot of the uuids and no slot of the value handles is used twice.
structure Apart (s : State) : Prop where
  uuids : Allotted s.numUuids s.uuidSlot
  valHandles : Allotted s.numValHandles s.valHandleSlot

theorem uuidSlot_putSvc (svc : Svc) (s : State) (a : Record) :
    (s.putSvc svc).uuidSlot a = if a = .svc s.numSvcs then some s.numUuids else s.uuidSlot a := by
  cases a with
  | svc i => by_cases hi : i = s.numSvcs <;> simp [State.uuidSlot, State.putSvc, hi]
  | chr i => simp [State.uuidSlot, State.putSvc]
  | dsc i => simp [State.uuidSlot, State.putSvc]

theorem uuidSlot_putChr (chr : Chr) (s : State) (a : Record) :
    (s.putChr chr).uuidSlot a = if a = .chr s.numChrs then some s.numUuids else s.uuidSlot a := by
  cases a with
  | svc i => simp [State.uuidSlot, State.putChr]
  | chr i => by_cases hi : i = s.numChrs <;> simp [State.uuidSlot, State.putChr, hi]
  | dsc i => simp [State.uuidSlot, State.putChr]

theorem uuidSlot_putDsc (dsc : Dsc) (s : State) (a : Record) :
    (s.putDsc dsc).uuidSlot a = if a = .dsc s.numDscs then some s.numUuids else s.uuidSlot a := by
  cases a with
  | svc i => simp [State.uuidSlot, State.putDsc]
  | chr i => simp [State.uuidSlot, State.putDsc]
  | dsc i => by_cases hi : i = s.numDscs <;> simp [State.uuidSlot, State.putDsc, hi]

theorem valHandleSlot_putChr (chr : Chr) (s : State) (i : Nat) :
    (s.putChr chr).valHandleSlot i =
      if i = s.numChrs then some s.numValHandles else s.valHandleSlot i := by
  by_cases hi : i = s.numChrs <;> simp [State.valHandleSlot, State.putChr, hi]

theorem Apart.putSvc {s : State} (h : Apart s) (svc : Svc) : Apart (s.putSvc svc) where
  uuids := by
    apply h.uuids.put (.svc s.numSvcs)
    · rw [uuidSlot_putSvc, if_pos rfl]
    · intro b hb
      rw [uuidSlot_putSvc, if_neg hb]
  valHandles := h.valHandles

theorem Apart.putChr {s : State} (h : Apart s) (chr : Chr) : Apart (s.putChr chr) where
  uuids := by
    apply h.uuids.put (.chr s.numChrs)
    · rw [uuidSlot_putChr, if_pos rfl]
    · intro b hb
      rw [uuidSlot_putChr, if_neg hb]
  valHandles := by
    apply h.valHandles.put s.numChrs
    · rw [valHandleSlot_putChr, if_pos rfl]
    · intro b hb
      rw [valHandleSlot_putChr, if_neg hb]

theorem Apart.putDsc {s : State} (h : Apart s) (dsc : Dsc) : Apart (s.putDsc dsc) where
  uuids := by
    apply h.uuids.put (.dsc s.numDscs)
    · rw [uuidSlot_putDsc, if_pos rfl]
    · intro b hb
      rw [uuidSlot_putDsc, if_neg hb]
  valHandles := h.valHandles

-- The counters of the records play no part, so a skipped slot changes nothing.
theorem apart_saving : Saving (fun _ => Apart) (fun _ => Apart) where
  putSvc svc _ _ h := h.putSvc svc
  putChr chr _ _ h := h.putChr chr
  putDsc dsc _ _ h := h.putDsc dsc
  endDscs _ _ h := ⟨h.uuids, h.valHandles⟩
  endChr _ _ h := ⟨h.uuids, h.valHandles⟩
  endChrs _ _ h := ⟨h.uuids, h.valHandles⟩
  endSvcs _ _ h := ⟨h.uuids, h.valHandles⟩

-- What a run of accepted requests keeps, with calls of bhd_next_evt_seq in
-- between.
structure Tidy (s : State) : Prop where
  fresh : Fresh s
  stale : Stale s
  within : Within s
  apart : Apart s

theorem tidy_zeroed (nextSeq : UInt32) : Tidy (State.zeroed nextSeq) where
  fresh := fresh_zeroed nextSeq
  stale := stale_zeroed nextSeq
  within := within_zeroed nextSeq
  apart := by
    refine ⟨⟨?_, ?_⟩, ⟨?_, ?_⟩⟩
    · intro a k ha
      cases a <;> simp [State.uuidSlot, State.zeroed, SvcDef.zero, ChrDef.zero, DscDef.zero] at ha
    · intro a b k ha
      cases a <;> simp [State.uuidSlot, State.zeroed, SvcDef.zero, ChrDef.zero, DscDef.zero] at ha
    · intro i k hi
      simp [State.valHandleSlot, State.zeroed, ChrDef.zero] at hi
    · intro i j k hi
      simp [State.valHandleSlot, State.zeroed, ChrDef.zero] at hi

theorem grows_draw (s : State) (seq : UInt32) : Grows s { s with nextSeq := seq } :=
  ⟨SameOutside.refl _ _ _, SameOutside.refl _ _ _, SameOutside.refl _ _ _,
    SameOutside.refl _ _ _, Nat.le_refl _, Nat.le_refl _, Nat.le_refl _, Nat.le_refl _,
    Nat.le_refl _⟩

theorem step_tidy (s : State) (event : TableEvent) (next : State) (h : Tidy s)
    (hstep : s.step event = some next) : Tidy next := by
  cases event with
  | add svcs =>
      have hadd := (s.step_add next svcs).mp hstep
      have hadded := addSvcs_added svcs s next hadd
      exact ⟨h.fresh.grows hadded.grows, addSvcs_stale svcs s next hadd h.stale, hadded.within,
        apart_saving.add svcs s next h.apart hadd⟩
  | draw =>
      obtain rfl := Option.some.inj hstep
      exact ⟨h.fresh.grows (grows_draw s _), ⟨h.stale.descriptors, h.stale.characteristics⟩,
        ⟨h.within.numSvcs, h.within.numChrs, h.within.numDscs, h.within.numUuids,
          h.within.numValHandles⟩, ⟨h.apart.uuids, h.apart.valHandles⟩⟩

theorem run_grows (events : List TableEvent) (s last : State)
    (hrun : Transition.run State.step s events = some last) : Grows s last := by
  refine Transition.run_keeps (fun mid event next hgrows hstep => ?_) s last events
    (Grows.refl s) hrun
  cases event with
  | add svcs =>
      exact hgrows.trans (addSvcs_added svcs mid next ((mid.step_add next svcs).mp hstep)).grows
  | draw =>
      obtain rfl := Option.some.inj hstep
      exact hgrows.trans (grows_draw mid _)

-- The slots of the services table that an event takes, its terminator included.
def svcSlots : TableEvent → Nat
  | .add svcs => svcs.length + 1
  | .draw => 0

theorem run_numSvcs (events : List TableEvent) (s last : State)
    (hrun : Transition.run State.step s events = some last) :
    last.numSvcs = s.numSvcs + (events.map svcSlots).sum := by
  induction events generalizing s with
  | nil =>
      obtain rfl := Option.some.inj hrun
      rfl
  | cons event rest ih =>
      obtain ⟨mid, hmid, hrest⟩ := Transition.run_cons hrun
      have hmore := ih mid hrest
      rw [List.map_cons, List.sum_cons]
      cases event with
      | add svcs =>
          have hnum := (addSvcs_added svcs s mid ((s.step_add mid svcs).mp hmid)).numSvcs
          simp only [svcSlots]
          omega
      | draw =>
          obtain rfl := Option.some.inj hmid
          simpa [svcSlots] using hmore

theorem SvcsAt.get {base s : State} {i c d : Nat} {seq : UInt32} {slot j : Nat} {svcs : List Svc}
    {svc : Svc} (h : SvcsAt base s i c d seq slot svcs) (hj : svcs[j]? = some svc) :
    ∃ c' d' seq' slot', c ≤ c' ∧ d ≤ d' ∧ SvcAt base s (i + j) c' d' seq' slot' svc := by
  induction svcs generalizing i c d seq slot j with
  | nil => simp at hj
  | cons first rest ih =>
      cases j with
      | zero =>
          obtain rfl := Option.some.inj hj
          exact ⟨c, d, seq, slot, Nat.le_refl c, Nat.le_refl d, h.1⟩
      | succ j =>
          obtain ⟨c', d', seq', slot', hc, hd, hsvc⟩ := ih h.2 hj
          rw [← Nat.succ_add_eq_add_succ]
          exact ⟨c', d', seq', slot', by omega, by omega, hsvc⟩

theorem ChrsAt.get {base s : State} {c d : Nat} {seq : UInt32} {slot k : Nat} {chrs : List Chr}
    {chr : Chr} (h : ChrsAt base s c d seq slot chrs) (hk : chrs[k]? = some chr) :
    ∃ d' seq' slot', d ≤ d' ∧ ChrAt base s (c + k) d' seq' slot' chr := by
  induction chrs generalizing c d seq slot k with
  | nil => simp at hk
  | cons first rest ih =>
      cases k with
      | zero =>
          obtain rfl := Option.some.inj hk
          exact ⟨d, seq, slot, Nat.le_refl d, h.1⟩
      | succ k =>
          obtain ⟨d', seq', slot', hd, hchr⟩ := ih h.2 hk
          rw [← Nat.succ_add_eq_add_succ]
          exact ⟨d', seq', slot', by omega, hchr⟩

-- Slot i holds the service: its lists are read back through the pointers, and
-- an empty list is a NULL pointer.
structure HoldsSvc (s : State) (i : Nat) (svc : Svc) : Prop where
  bound : i < s.numSvcs
  node : ∃ node, s.svcNode (s.svcs i) = some node ∧ node.Describes svc
  noChrs : svc.chrs = [] → (s.svcs i).characteristics = none
  noDscs : ∀ c, (s.svcs i).characteristics = some c → ∀ k chr, svc.chrs[k]? = some chr →
    chr.dscs = [] → (s.chrs (c + k)).descriptors = none

theorem SvcAt.holds {base s : State} {i c d : Nat} {seq : UInt32} {slot : Nat} {svc : Svc}
    (h : SvcAt base s i c d seq slot svc) (hbase : Fresh base) (hs : Tidy s)
    (hi : base.numSvcs ≤ i) (hc : base.numChrs ≤ c) (hd : base.numDscs ≤ d) :
    HoldsSvc s i svc := by
  obtain ⟨u, hu, huuid, hrecord⟩ := h.record
  have hclean := hbase.svcClean svc hi hc hd
  refine ⟨h.bound, ⟨svcNodeOf seq slot svc, ?_, rfl, rfl, chrNodesOf_describe _ _ _⟩, ?_, ?_⟩
  · exact (svcNode_iff base s i c d seq slot svc h hs.within hs.stale).mpr hclean
  · intro hnone
    rw [hrecord, hnone]
    exact congrArg SvcDef.characteristics (hbase.svcs i hi)
  · intro c' hpointer k chr hchr hnone
    have hlen : 0 < svc.chrs.length := by
      have := (List.getElem?_eq_some_iff.mp hchr).1
      omega
    obtain rfl : c = c' := by simpa [hrecord, hlen] using hpointer
    obtain ⟨d', seq', slot', hd', hstored⟩ := (h.chrs hlen).1.get hchr
    obtain ⟨u', _, _, hrecord'⟩ := hstored.record
    rw [hrecord', hnone]
    exact congrArg ChrDef.descriptors (hbase.chrs (c + k) (by omega))

-- Service j of a request is behind all slots that earlier requests have taken.
structure FaithfulRecords (events : List TableEvent) (s : State) : Prop where
  stored : ∀ before request after, events = before ++ .add request :: after →
    ∀ j svc, request[j]? = some svc → HoldsSvc s ((before.map svcSlots).sum + j) svc
  uuids : ∀ a b slot, s.uuidSlot a = some slot → s.uuidSlot b = some slot → a = b
  valHandles : ∀ i j slot, s.valHandleSlot i = some slot → s.valHandleSlot j = some slot → i = j

theorem run_faithful (nextSeq : UInt32) (events : List TableEvent) (s : State)
    (hrun : Transition.run State.step (State.zeroed nextSeq) events = some s) :
    FaithfulRecords events s := by
  have htidy := Transition.run_keeps step_tidy _ s events (tidy_zeroed nextSeq) hrun
  refine ⟨?_, htidy.apart.uuids.apart, htidy.apart.valHandles.apart⟩
  rintro before request after rfl j svc hj
  obtain ⟨mid, hmid, hlater⟩ := Transition.run_append hrun
  obtain ⟨next, hnext, hrest⟩ := Transition.run_cons hlater
  have hadded := addSvcs_added request mid next ((mid.step_add next request).mp hnext)
  have hfirst := run_numSvcs before _ mid hmid
  obtain ⟨c, d, seq, slot, hc, hd, hsvc⟩ := hadded.stored.get hj
  have hbase := Transition.run_keeps step_tidy _ mid before (tidy_zeroed nextSeq) hmid
  have hslot : mid.numSvcs = (before.map svcSlots).sum := by
    rw [hfirst]
    exact Nat.zero_add _
  rw [← hslot]
  exact (hsvc.grows (run_grows after next s hrest)).holds hbase.fresh htidy (Nat.le_add_right _ _)
    hc hd

-- A service with two characteristics, the second without descriptors, and later
-- a service without characteristics.
def mixedEvents : List TableEvent :=
  [.add [⟨.primary, .u16 0x180f, [⟨.u16 0x2a19, 2, 0, [⟨.known (.u16 0x2901), 1, 0⟩]⟩,
    ⟨.u16 0x2a1a, 2, 0, []⟩]⟩], .draw, .add [⟨.secondary, .u16 0x180d, []⟩]]

theorem run_faithful_mixed : ∃ s,
    Transition.run State.step State.initial mixedEvents = some s ∧
      FaithfulRecords mixedEvents s := by
  have hrun : ∃ s, Transition.run State.step State.initial mixedEvents = some s := ⟨_, rfl⟩
  obtain ⟨s, hs⟩ := hrun
  exact ⟨s, hs, run_faithful BHD_SEQ_EVT_MIN mixedEvents s hs⟩

end Blehostd.Gatts
