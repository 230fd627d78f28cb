import Blehostd.System.Refinement

namespace Blehostd

-- The block behind the argument of a callback.
def Callback.block : Callback → Option Nat
  | .discChr arg => some arg
  | .discDsc arg => some arg
  | _ => none

theorem Holds.block {req : MsgHdr} {cb : Callback} {cell : Option (Nat × DiscArg)}
    (h : Holds req cb cell) : cb.block = cell.map Prod.fst := by
  cases h <;> rfl

theorem links_blocks (links : List Link) :
    (links.map Link.cb).filterMap Callback.block =
      (links.filterMap Link.cell).map Prod.fst := by
  rw [List.filterMap_map, List.map_filterMap]
  apply List.filterMap_congr
  intro link _
  exact link.holds.block

-- Where every request finds a free block and stays inside its own ones, and every response
-- has an encoder, the daemon gets as far as the service.
theorem run_of_service (lib : Externs) (hlib : lib.Prints) (acts : List SysAct)
    (hallowed : Transition.Meets (System.step lib) (System.Allowed lib) System.initial acts)
    (t : Service) (ht : Transition.run (Service.step lib) Service.initial acts = some t) :
    ∃ s, Transition.run (System.step lib) System.initial acts = some s ∧ Refines lib s t := by
  have htogether : ∀ s t act, Refines lib s t → s.Allowed lib act →
      StepsTogether lib s t act := by
    intro s t act hR hact
    exact step_together lib hlib s t act hR (Or.inl hact)
  rcases Transition.run_together htogether _ _ acts (refines_initial lib) hallowed with
    ⟨-, hnone⟩ | ⟨s, other, hs, hother, hR⟩
  · rw [ht] at hnone
    cases hnone
  · obtain rfl : t = other := Option.some.inj (ht.symm.trans hother)
    exact ⟨s, hs, hR⟩

theorem daemon_refines_service (lib : Externs) (hlib : lib.Prints) (acts : List SysAct) :
    (∀ s, Transition.run (System.step lib) System.initial acts = some s →
      ∃ t, Transition.run (Service.step lib) Service.initial acts = some t ∧
        s.world = t.world ∧ s.pending = t.pending ∧
        (∃ links : List Link, s.callbacks = links.map Link.cb ∧ t.procs = links.map Link.req ∧
          Heap.Owned s.heap (links.filterMap Link.cell)) ∧
        s.put = t.sent.flatMap (Message.frames lib)) ∧
    (Transition.Meets (System.step lib) (System.Allowed lib) System.initial acts →
      ∀ t, Transition.run (Service.step lib) Service.initial acts = some t →
        ∃ s, Transition.run (System.step lib) System.initial acts = some s) := by
  constructor
  · intro s hrun
    obtain ⟨t, ht, hR⟩ := run_refines lib hlib acts s hrun
    exact ⟨t, ht, hR.world, hR.pending, hR.links, hR.put⟩
  · intro hallowed t ht
    obtain ⟨s, hs, -⟩ := run_of_service lib hlib acts hallowed t ht
    exact ⟨s, hs⟩

def discChrsRequest : Json :=
  .object [(ascii "op", .string (ascii "request")), (ascii "type", .string (ascii "disc_all_chrs")),
    (ascii "seq", .number 7), (ascii "conn_handle", .number 1), (ascii "start_handle", .number 10),
    (ascii "end_handle", .number 20)]

def discChrsExterns : Externs := ⟨fun _ => some discChrsRequest, Json.layout 0, canonicalUuid⟩

theorem canonicalUuid_length (uuid : Uuid) : (canonicalUuid uuid).length ≤ 36 := by
  rw [canonicalUuid_size]
  cases uuid <;> simp [uuidLength]

theorem discChrs_prints : discChrsExterns.Prints where
  print _ := rfl
  uuidToStr := canonicalUuid_length

def quietCbHost : CbHost := ⟨fun _ => none, fun _ _ => none, fun _ => none⟩

-- One characteristic is found before the response is queued, then the procedure ends.
def discChrsActs : List SysAct :=
  [.request [] zeroJunk acceptingHost 5,
    .callback 0 quietCbHost (.discChr 1 0 ⟨11, 12, 2, .u16 0x2a00⟩),
    .callback 0 quietCbHost (.discChr 1 14 GattChr.zero)]

theorem discChrs_allowed : Transition.Meets (System.step discChrsExterns)
    (System.Allowed discChrsExterns) System.initial discChrsActs :=
  ⟨⟨rfl, not_overruns rfl (by decide)⟩,
    fun _ _ => ⟨trivial, fun _ _ => ⟨trivial, fun _ _ => trivial⟩⟩⟩

theorem discChrs_service : ∃ t,
    Transition.run (Service.step discChrsExterns) Service.initial discChrsActs = some t ∧
      t.sent.length = 2 ∧ t.procs = [] :=
  ⟨_, rfl, rfl, rfl⟩

theorem discChrs_run : ∃ s,
    Transition.run (System.step discChrsExterns) System.initial discChrsActs = some s := by
  obtain ⟨t, ht, -⟩ := discChrs_service
  obtain ⟨s, hs, -⟩ := run_of_service discChrsExterns discChrs_prints discChrsActs
    discChrs_allowed t ht
  exact ⟨s, hs⟩

theorem discChrs_refines_service : ∃ s,
    Transition.run (System.step discChrsExterns) System.initial discChrsActs = some s ∧
      s.callbacks = [] := by
  obtain ⟨t, ht, -, hprocs⟩ := discChrs_service
  have hrefines := daemon_refines_service discChrsExterns discChrs_prints discChrsActs
  obtain ⟨s, hs⟩ := hrefines.2 discChrs_allowed t ht
  obtain ⟨other, hother, -, -, ⟨links, hcallbacks, hreqs, -⟩, -⟩ := hrefines.1 s hs
  obtain rfl : t = other := Option.some.inj (ht.symm.trans hother)
  have hlinks : links = [] := List.map_eq_nil_iff.mp (hreqs.symm.trans hprocs)
  exact ⟨s, hs, by rw [hcallbacks, hlinks]; rfl⟩

def Callback.kind : Callback → ProcKind
  | .gapEvent _ => .gap
  | .discSvc _ => .discSvc
  | .discChr _ => .discChr
  | .discDsc _ => .discDsc
  | .write _ => .write
  | .mtu _ => .mtu

theorem Holds.kind {req : MsgHdr} {cb : Callback} {cell : Option (Nat × DiscArg)}
    (h : Holds req cb cell) : req.type.kind = some cb.kind := by
  cases h <;> assumption

-- The blocks that are allocated are those of the callbacks that the host holds, each one
-- the argument of a single callback, and no callback touches a block that was freed.
theorem client_memory_owned (lib : Externs) (hlib : lib.Prints) (acts : List SysAct) (s : System)
    (hrun : Transition.run (System.step lib) System.initial acts = some s) :
    (s.callbacks.filterMap Callback.block).Nodup ∧
    (∀ b, s.heap b ≠ none ↔ b ∈ s.callbacks.filterMap Callback.block) ∧
    ∀ i cb host input, s.callbacks[i]? = some cb → cb.kind = input.kind → cb.kind ≠ .gap →
      ∃ next, System.step lib s (.callback i host input) = some next := by
  obtain ⟨t, -, hR⟩ := run_refines lib hlib acts s hrun
  obtain ⟨links, hcallbacks, hprocs, howned⟩ := hR.links
  have hblocks := links_blocks links
  rw [← hcallbacks] at hblocks
  refine ⟨?_, ?_, ?_⟩
  · rw [hblocks]
    exact howned.once
  · intro b
    rw [hblocks, List.mem_map]
    constructor
    · intro hb
      obtain ⟨a, ha⟩ := Option.ne_none_iff_exists'.mp hb
      exact ⟨(b, a), (howned.content b a).mp ha, rfl⟩
    · rintro ⟨⟨_, a⟩, hmem, rfl⟩
      rw [(howned.content _ a).mpr hmem]
      exact Option.some_ne_none a
  · intro i cb host input hcb hkind hgap
    rcases step_together lib hlib s t (.callback i host input) hR (Or.inl trivial) with
      ⟨-, hnone⟩ | ⟨next, -, hnext, -⟩
    · exfalso
      rw [hcallbacks, List.getElem?_map] at hcb
      obtain ⟨link, hlink, rfl⟩ := Option.map_eq_some_iff.mp hcb
      have hreq : t.procs[i]? = some link.req := by simp [hprocs, hlink]
      have hinput : link.req.type.kind = some input.kind := by rw [link.holds.kind, hkind]
      have hbody : ∃ body, input.body = some body := by
        cases input with
        | gapEvent event => exact absurd hkind hgap
        | _ => exact ⟨_, rfl⟩
      obtain ⟨body, hbody⟩ := hbody
      have hreport := report_of_kind host link.req input t.world.tables.nextSeq hinput body hbody
      simp [Service.step, hreq, hreport] at hnone
    · exact ⟨next, hnext⟩

theorem discChrs_memory_owned : ∃ s,
    Transition.run (System.step discChrsExterns) System.initial discChrsActs = some s ∧
      ∀ b, s.heap b ≠ none ↔ b ∈ s.callbacks.filterMap Callback.block := by
  obtain ⟨s, hs⟩ := discChrs_run
  exact ⟨s, hs, (client_memory_owned discChrsExterns discChrs_prints discChrsActs s hs).2.1⟩

end Blehostd
