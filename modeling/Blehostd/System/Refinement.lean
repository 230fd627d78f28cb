import Blehostd.Library.Simulation
import Blehostd.System.Reports
import Blehostd.System.Starts

namespace Blehostd

def Message.root (uuidToStr : Uuid → Text) : Message → Except Fault Json
  | .rsp r => rspEnc uuidToStr r
  | .evt e => evtEnc uuidToStr e

-- What a message puts on blehostd_rsp_mq: nothing when its text is too long.
def Message.frames (lib : Externs) (m : Message) : List Mbuf :=
  match m.root lib.uuidToStr with
  | .error _ => []
  | .ok root => (enqueueRsp (lib.print root) []).2

-- cJSON_Print and ble_uuid_to_str of the host.
structure Externs.Prints (lib : Externs) : Prop where
  print : ∀ json, lib.print json = Json.layout 0 json
  uuidToStr : ∀ uuid, (lib.uuidToStr uuid).length ≤ 36

theorem enqueueRsp_append (json : Text) (rspMq : List Mbuf) :
    (enqueueRsp json rspMq).2 = rspMq ++ (enqueueRsp json []).2 := by
  unfold enqueueRsp
  split_ifs <;> simp

theorem rspSend_frames (lib : Externs) (rsp : Rsp) (rspMq : List Mbuf) (root : Json)
    (hroot : rspEnc lib.uuidToStr rsp = .ok root) :
    ∃ rc, rspSend lib rsp rspMq = .ok (rc, rspMq ++ Message.frames lib (.rsp rsp)) := by
  have happend := enqueueRsp_append (lib.print root) rspMq
  refine ⟨(enqueueRsp (lib.print root) rspMq).1, ?_⟩
  simp only [rspSend, hroot, bind, Except.bind, Message.frames, Message.root, ← happend]

-- An event is never too long.
theorem evtSend_sound (lib : Externs) (hlib : lib.Prints) (evt : Evt) (hevt : evt.Sound)
    (rspMq : List Mbuf) : ∃ frame, evtSend lib evt rspMq = .ok (0, rspMq ++ [frame]) ∧
      Message.frames lib (.evt evt) = [frame] := by
  obtain ⟨members, henc, hsize⟩ :=
    evtEnc_short lib.uuidToStr hlib.uuidToStr evt hevt.type hevt.fits
  rw [← hlib.print] at hsize
  have hmax : BLEHOSTD_MAX_MSG_SZ = 10240 := rfl
  have hshort : ¬BLEHOSTD_MAX_MSG_SZ <
      (lib.print (.object (msgHdrEnc evt.hdr ++ members))).length := by omega
  refine ⟨rspFrame (lib.print (.object (msgHdrEnc evt.hdr ++ members))), ?_, ?_⟩
  · simp only [evtSend, henc, bind, Except.bind, enqueueRsp, if_neg hshort]
  · simp only [Message.frames, Message.root, henc, enqueueRsp, if_neg hshort, List.nil_append]

-- A callback that the host holds, with its request and its block.
structure Link where
  req : MsgHdr
  cb : Callback
  cell : Option (Nat × DiscArg)
  holds : Holds req cb cell

structure Refines (lib : Externs) (s : System) (t : Service) : Prop where
  world : s.world = t.world
  pending : s.pending = t.pending
  links : ∃ links : List Link, s.callbacks = links.map Link.cb ∧ t.procs = links.map Link.req ∧
    Heap.Owned s.heap (links.filterMap Link.cell)
  put : s.put = t.sent.flatMap (Message.frames lib)

theorem Holds.kind_ne {req : MsgHdr} {kind : ProcKind} {input : CbInput} {host : CbHost}
    {nextSeq : UInt32} (hkind : req.type.kind = some kind) (hne : input.kind ≠ kind) :
    Service.report host req input nextSeq = none := by
  have hother : ¬req.type.kind = some input.kind := by
    rw [hkind]
    exact fun h => hne (Option.some.inj h).symm
  unfold Service.report
  rw [if_neg hother]

theorem report_of_kind (host : CbHost) (req : MsgHdr) (input : CbInput) (nextSeq : UInt32)
    (hkind : req.type.kind = some input.kind) (body : EvtBody)
    (hbody : input.body = some body) :
    Service.report host req input nextSeq = some (Service.reported req.seq body nextSeq) := by
  unfold Service.report
  rw [if_pos hkind]
  cases input with
  | gapEvent event => cases hbody
  | _ =>
      obtain rfl := Option.some.inj hbody
      rfl

-- A callback does what the service says of its procedure. A block is freed with the last
-- report, and not before.
theorem runCallback_report (host : CbHost) (req : MsgHdr) (cb : Callback)
    (cell : Option (Nat × DiscArg)) (hholds : Holds req cb cell) (input : CbInput)
    (nextSeq : UInt32) (heap : ArgHeap) (rest : List (Nat × DiscArg))
    (howned : Heap.Owned heap (cell.toList ++ rest)) :
    (Service.report host req input nextSeq = none ∧
      runCallback host cb input nextSeq heap = none) ∨
    ∃ outcome next, Service.report host req input nextSeq = some outcome ∧
      runCallback host cb input nextSeq heap = some (outcome, next) ∧
      Heap.Owned next (if input.last then rest else cell.toList ++ rest) := by
  cases hholds with
  | gapEvent hkind =>
      cases input with
      | gapEvent event =>
          have hreport : Service.report host req (.gapEvent event) nextSeq =
              (gapEvent host event req.seq nextSeq).toOption := by
            simp [Service.report, CbInput.kind, hkind]
          rw [hreport]
          cases hevent : gapEvent host event req.seq nextSeq with
          | error fault => exact Or.inl ⟨rfl, by simp [runCallback, hevent, Except.toOption]⟩
          | ok outcome =>
              exact Or.inr ⟨outcome, heap, rfl, by simp [runCallback, hevent, Except.toOption],
                howned⟩
      | _ => exact Or.inl ⟨Holds.kind_ne hkind (by simp [CbInput.kind]), rfl⟩
  | discSvc hkind =>
      cases input with
      | discSvc connHandle status service =>
          refine Or.inr ⟨_, heap, report_of_kind _ _ _ _ hkind _ rfl, rfl, ?_⟩
          simpa using howned
      | _ => exact Or.inl ⟨Holds.kind_ne hkind (by simp [CbInput.kind]), rfl⟩
  | discChr block handle hkind =>
      cases input with
      | discChr connHandle status chr =>
          have hload := howned.load block _ List.mem_cons_self
          obtain ⟨next, hfree, hnext⟩ := Heap.Owned.free block _ howned
          by_cases hstatus : status = 0
          · refine Or.inr ⟨_, heap, report_of_kind _ _ _ _ hkind _ rfl, ?_, ?_⟩
            · simp [runCallback, gattcDiscChrCb, hload, hstatus, Service.reported, EvtBody.type]
            · simpa [CbInput.last, hstatus] using howned
          · refine Or.inr ⟨_, next, report_of_kind _ _ _ _ hkind _ rfl, ?_, ?_⟩
            · simp [runCallback, gattcDiscChrCb, hload, hstatus, hfree, Service.reported,
                EvtBody.type]
            · simpa [CbInput.last, hstatus] using hnext
      | _ => exact Or.inl ⟨Holds.kind_ne hkind (by simp [CbInput.kind]), rfl⟩
  | discDsc block handle hkind =>
      cases input with
      | discDsc connHandle status chrDefHandle dsc =>
          have hload := howned.load block _ List.mem_cons_self
          obtain ⟨next, hfree, hnext⟩ := Heap.Owned.free block _ howned
          by_cases hstatus : status = 0
          · refine Or.inr ⟨_, heap, report_of_kind _ _ _ _ hkind _ rfl, ?_, ?_⟩
            · simp [runCallback, gattcDiscDscCb, hload, hstatus, Service.reported, EvtBody.type]
            · simpa [CbInput.last, hstatus] using howned
          · refine Or.inr ⟨_, next, report_of_kind _ _ _ _ hkind _ rfl, ?_, ?_⟩
            · simp [runCallback, gattcDiscDscCb, hload, hstatus, hfree, Service.reported,
                EvtBody.type]
            · simpa [CbInput.last, hstatus] using hnext
      | _ => exact Or.inl ⟨Holds.kind_ne hkind (by simp [CbInput.kind]), rfl⟩
  | write hkind =>
      cases input with
      | write connHandle status attrHandle =>
          exact Or.inr ⟨_, heap, report_of_kind _ _ _ _ hkind _ rfl, rfl, howned⟩
      | _ => exact Or.inl ⟨Holds.kind_ne hkind (by simp [CbInput.kind]), rfl⟩
  | mtu hkind =>
      cases input with
      | mtu connHandle status mtu =>
          exact Or.inr ⟨_, heap, report_of_kind _ _ _ _ hkind _ rfl, rfl, howned⟩
      | _ => exact Or.inl ⟨Holds.kind_ne hkind (by simp [CbInput.kind]), rfl⟩

theorem startCall_quiet (host : Host) (block : Nat) (call : HostCall) (heap : ArgHeap)
    (hquiet : call.Quiet) : startCall host block call heap = some (heap, []) := by
  simp only [startCall, hquiet block]

theorem startCalls_last (host : Host) (block : Nat) (before : List HostCall) (call : HostCall)
    (heap : ArgHeap) (hquiet : ∀ other ∈ before, other.Quiet) :
    startCalls host block (before ++ [call]) heap = startCall host block call heap := by
  induction before with
  | nil =>
      rw [List.nil_append]
      cases hcall : startCall host block call heap with
      | none => simp [startCalls, hcall]
      | some result => simp [startCalls, hcall]
  | cons other rest ih =>
      have hfirst := startCall_quiet host block other heap (hquiet other List.mem_cons_self)
      have hrest := ih fun a ha => hquiet a (List.mem_cons_of_mem _ ha)
      rw [List.cons_append, startCalls, hfirst]
      simp only [Option.bind_eq_bind, Option.bind_some, hrest]
      cases startCall host block call heap <;> rfl

theorem startCalls_quiet (host : Host) (block : Nat) (calls : List HostCall) (heap : ArgHeap)
    (hquiet : ∀ call ∈ calls, call.Quiet) : startCalls host block calls heap = some (heap, []) := by
  induction calls with
  | nil => rfl
  | cons call rest ih =>
      have hfirst := startCall_quiet host block call heap (hquiet call List.mem_cons_self)
      have hrest := ih fun a ha => hquiet a (List.mem_cons_of_mem _ ha)
      simp only [startCalls, hfirst, hrest, Option.bind_eq_bind, Option.bind_some, List.nil_append]

-- The argument is freed again when the host refuses the call.
theorem gattcDiscArg_owned (block : Nat) (arg : DiscArg) (rc : Int32) (heap : ArgHeap)
    (cells : List (Nat × DiscArg)) (howned : Heap.Owned heap cells) (hfree : heap block = none) :
    ∃ next, gattcDiscArg block arg rc heap = some next ∧
      Heap.Owned next (if rc = 0 then (block, arg) :: cells else cells) := by
  obtain ⟨mid, hmalloc, hmid⟩ := howned.malloc block arg hfree
  by_cases hrc : rc = 0
  · exact ⟨mid, by simp [gattcDiscArg, hmalloc, hrc], by simpa [hrc] using hmid⟩
  · obtain ⟨next, hnext, hlast⟩ := Heap.Owned.free block arg hmid
    exact ⟨next, by simp [gattcDiscArg, hmalloc, hrc, hnext], by simpa [hrc] using hlast⟩

theorem gattcDiscArg_free (block : Nat) (arg : DiscArg) (rc : Int32) (heap next : ArgHeap)
    (h : gattcDiscArg block arg rc heap = some next) : heap block = none := by
  cases hblock : heap block with
  | none => rfl
  | some old =>
      simp only [gattcDiscArg, Heap.malloc, hblock, Option.bind_eq_bind, Option.bind_none] at h
      cases h

-- The host holds the callback of a call that it has accepted, and nothing else.
theorem startCall_started (host : Host) (block : Nat) (req : MsgHdr) (call : HostCall)
    (heap : ArgHeap) (cells : List (Nat × DiscArg)) (hstarts : call.Starts req)
    (howned : Heap.Owned heap cells)
    (hfree : heap block = none ∨ (startCall host block call heap).isSome = true) :
    ∃ (next : ArgHeap) (links : List Link),
      startCall host block call heap = some (next, links.map Link.cb) ∧
      links.map Link.req = (if host.result call = 0 then [req] else []) ∧
      Heap.Owned next (links.filterMap Link.cell ++ cells) := by
  obtain ⟨cb, arg, hcallback, hholds⟩ := hstarts block
  cases arg with
  | none =>
      by_cases hrc : host.result call = 0
      · refine ⟨heap, [⟨req, cb, none, hholds⟩], ?_, ?_, howned⟩
        · simp [startCall, hcallback, hrc]
        · simp [hrc]
      · refine ⟨heap, [], ?_, ?_, howned⟩
        · simp [startCall, hcallback, hrc]
        · simp [hrc]
  | some arg =>
      have hblock : heap block = none := by
        rcases hfree with hblock | hsome
        · exact hblock
        · cases hnext : gattcDiscArg block arg (host.result call) heap with
          | none => simp [startCall, hcallback, hnext] at hsome
          | some next => exact gattcDiscArg_free block arg _ heap next hnext
      obtain ⟨next, hnext, hlast⟩ :=
        gattcDiscArg_owned block arg (host.result call) heap cells howned hblock
      by_cases hrc : host.result call = 0
      · refine ⟨next, [⟨req, cb, some (block, arg), hholds⟩], ?_, ?_, ?_⟩
        · rw [hrc] at hnext
          simp [startCall, hcallback, hrc, hnext]
        · simp [hrc]
        · simpa [hrc] using hlast
      · refine ⟨next, [], ?_, ?_, ?_⟩
        · simp [startCall, hcallback, hnext, hrc]
        · simp [hrc]
        · simpa [hrc] using hlast

theorem startCalls_started (host : Host) (block : Nat) (hdr : Option MsgHdr) (answer : Answer)
    (heap : ArgHeap) (cells : List (Nat × DiscArg)) (hstarted : Started hdr host answer)
    (howned : Heap.Owned heap cells)
    (hfree : heap block = none ∨ (startCalls host block answer.calls heap).isSome = true) :
    ∃ (next : ArgHeap) (links : List Link),
      startCalls host block answer.calls heap = some (next, links.map Link.cb) ∧
      links.map Link.req = startedBy hdr answer.rsp ∧
      Heap.Owned next (links.filterMap Link.cell ++ cells) := by
  cases hstarted with
  | idle hquiet hnone =>
      refine ⟨heap, [], startCalls_quiet host block _ heap hquiet, ?_, howned⟩
      rw [hnone]
      rfl
  | call req before call hcalls hquiet hstarts hlist =>
      have hlast := startCalls_last host block before call heap hquiet
      rw [← hcalls] at hlast
      rw [hlast] at hfree ⊢
      rw [hlist]
      exact startCall_started host block req call heap cells hstarts howned hfree

-- The actions that the memory and the responses allow: malloc gives out a free block, the
-- request stays inside the blocks of its handler, and the response can be encoded.
def System.Allowed (lib : Externs) (s : System) : SysAct → Prop
  | .request packet _ _ block =>
      s.heap block = none ∧ ¬Overruns (lib.parse (reqText packet))
  | .respond => ∀ rsp, s.pending = some rsp → ∃ root, rspEnc lib.uuidToStr rsp = .ok root
  | _ => True

def System.Possible (lib : Externs) (s : System) (act : SysAct) : Prop :=
  s.Allowed lib act ∨ (System.step lib s act).isSome = true

def StepsTogether (lib : Externs) : System → Service → SysAct → Prop :=
  Transition.Together (System.step lib) (Service.step lib) (Refines lib)

theorem sendEvt_refines (lib : Externs) (hlib : lib.Prints) (s : System) (t : Service)
    (h : Refines lib s t) (evt : Option Evt) (hevt : ∀ e, evt = some e → e.Sound) :
    ∃ next, System.sendEvt lib evt s = some next ∧ Refines lib next (t.send evt) := by
  cases evt with
  | none =>
      refine ⟨s, rfl, h.world, h.pending, h.links, ?_⟩
      simpa [Service.send] using h.put
  | some evt =>
      obtain ⟨frame, hsend, hframes⟩ := evtSend_sound lib hlib evt (hevt evt rfl) s.put
      refine ⟨{ s with put := s.put ++ [frame] }, ?_, h.world, h.pending, h.links, ?_⟩
      · simp [System.sendEvt, hsend, Except.toOption]
      · simp [Service.send, h.put, hframes]

theorem sendEvtAsserted_refines (lib : Externs) (hlib : lib.Prints) (s : System) (t : Service)
    (h : Refines lib s t) (evt : Evt) (hevt : evt.Sound) :
    ∃ next, System.sendEvtAsserted lib evt s = some next ∧ Refines lib next (t.send (some evt)) := by
  obtain ⟨frame, hsend, hframes⟩ := evtSend_sound lib hlib evt hevt s.put
  refine ⟨{ s with put := s.put ++ [frame] }, ?_, h.world, h.pending, h.links, ?_⟩
  · simp [System.sendEvtAsserted, hsend, Except.toOption]
  · simp [Service.send, h.put, hframes]

theorem Refines.withWorld {lib : Externs} {s : System} {t : Service} (h : Refines lib s t)
    (world : World) : Refines lib { s with world := world } { t with world := world } where
  world := rfl
  pending := h.pending
  links := h.links
  put := h.put

theorem request_together (lib : Externs) (s : System) (t : Service) (h : Refines lib s t)
    (packet : Mbuf) (junk : Junk) (host : Host) (block : Nat)
    (hpossible : s.Possible lib (.request packet junk host block)) :
    StepsTogether lib s t (.request packet junk host block) := by
  obtain ⟨links, hcallbacks, hprocs, howned⟩ := h.links
  cases hpending : t.pending with
  | some rsp =>
      left
      have hs : s.pending = some rsp := h.pending.trans hpending
      simp [System.step, Service.step, hs, hpending]
  | none =>
      have hs : s.pending = none := h.pending.trans hpending
      have hinside : ¬Overruns (lib.parse (reqText packet)) := by
        rcases hpossible with hallowed | hsome
        · exact hallowed.2
        · intro hoverruns
          have hfault := reqDec_overruns junk host s.world hoverruns
          simp [System.step, hs, hfault, Except.toOption] at hsome
      have hsame := reqDec_inside junk host t.world hinside
      cases houtcome : reqOutcome (lib.parse (reqText packet)) junk host t.world with
      | error fault =>
          left
          have hdec := hsame.trans houtcome
          simp [System.step, Service.step, hs, hpending, h.world, hdec, houtcome, Except.toOption]
      | ok outcome =>
          right
          have hdec := hsame.trans houtcome
          have hret := reqOutcome_ret _ _ _ _ _ houtcome
          have hfree : s.heap block = none ∨
              (startCalls host block outcome.answer.calls s.heap).isSome = true := by
            rcases hpossible with hallowed | hsome
            · exact Or.inl hallowed.1
            · right
              simp only [System.step, hs, h.world, hdec, Except.toOption, Option.bind_eq_bind,
                Option.bind_some] at hsome
              cases hcalls : startCalls host block outcome.answer.calls s.heap with
              | none => simp [hcalls] at hsome
              | some result => rfl
          obtain ⟨heap, started, hcalls, hreqs, hlast⟩ := startCalls_started host block _ _ s.heap _
            (reqOutcome_started _ _ _ _ _ houtcome) howned hfree
          refine ⟨⟨outcome.answer.world, some outcome.answer.rsp, heap,
              s.callbacks ++ started.map Link.cb, s.put⟩,
            ⟨outcome.answer.world, some outcome.answer.rsp,
              t.procs ++ startedBy (headerOfPacket lib packet) outcome.answer.rsp, t.sent⟩,
            ?_, ?_, rfl, rfl, ⟨links ++ started, ?_, ?_, ?_⟩, h.put⟩
          · simp [System.step, hs, h.world, hdec, Except.toOption, hcalls, hret]
          · simp [Service.step, hpending, houtcome, Except.toOption]
          · rw [hcallbacks, List.map_append]
          · rw [hprocs, List.map_append, hreqs]
            rfl
          · rw [List.filterMap_append]
            exact hlast.perm List.perm_append_comm

theorem respond_together (lib : Externs) (s : System) (t : Service) (h : Refines lib s t)
    (hpossible : s.Possible lib .respond) : StepsTogether lib s t .respond := by
  cases hpending : t.pending with
  | none =>
      left
      have hs : s.pending = none := h.pending.trans hpending
      simp [System.step, Service.step, hs, hpending]
  | some rsp =>
      right
      have hs : s.pending = some rsp := h.pending.trans hpending
      have hroot : ∃ root, rspEnc lib.uuidToStr rsp = .ok root := by
        rcases hpossible with hallowed | hsome
        · exact hallowed rsp hs
        · cases henc : rspEnc lib.uuidToStr rsp with
          | error fault =>
              simp [System.step, hs, rspSend, henc, bind, Except.bind, Except.toOption] at hsome
          | ok root => exact ⟨root, rfl⟩
      obtain ⟨root, henc⟩ := hroot
      obtain ⟨rc, hsend⟩ := rspSend_frames lib rsp s.put root henc
      refine ⟨{ s with pending := none, put := s.put ++ Message.frames lib (.rsp rsp) },
        { t with pending := none, sent := t.sent ++ [.rsp rsp] }, ?_, ?_, h.world, rfl, h.links, ?_⟩
      · simp [System.step, hs, hsend, Except.toOption]
      · simp [Service.step, hpending]
      · simp [h.put]

-- The callback that the host calls is the one of some link, and a last report ends the link.
theorem callback_together (lib : Externs) (hlib : lib.Prints) (s : System) (t : Service)
    (h : Refines lib s t) (i : Nat) (host : CbHost) (input : CbInput) :
    StepsTogether lib s t (.callback i host input) := by
  obtain ⟨links, hcallbacks, hprocs, howned⟩ := h.links
  by_cases hi : i < links.length
  · have hcb : s.callbacks[i]? = some links[i].cb := by simp [hcallbacks, hi]
    have hreq : t.procs[i]? = some links[i].req := by simp [hprocs, hi]
    have hperm : (links.filterMap Link.cell).Perm
        (links[i].cell.toList ++ (links.eraseIdx i).filterMap Link.cell) := by
      have hcons := (List.getElem_cons_eraseIdx_perm hi).symm.filterMap Link.cell
      rw [List.filterMap_cons] at hcons
      cases hcell : links[i].cell with
      | none => simpa [hcell] using hcons
      | some cell => simpa [hcell] using hcons
    rcases runCallback_report host links[i].req links[i].cb links[i].cell links[i].holds input
        t.world.tables.nextSeq s.heap _ (howned.perm hperm) with
      ⟨hreport, hrun⟩ | ⟨outcome, heap, hreport, hrun, hlast⟩
    · left
      simp [System.step, Service.step, hcb, hreq, h.world, hreport, hrun]
    · right
      have hsound := (report_reported host _ input _ outcome hreport).sound
      let links' := if input.last then links.eraseIdx i else links
      have hmid : Refines lib
          { s with
            world := t.world.withNextSeq outcome.nextSeq
            heap := heap
            callbacks := if input.last then s.callbacks.eraseIdx i else s.callbacks }
          { t with
            world := t.world.withNextSeq outcome.nextSeq
            procs := if input.last then t.procs.eraseIdx i else t.procs } := by
        refine ⟨rfl, h.pending, ⟨links', ?_, ?_, ?_⟩, h.put⟩
        · by_cases hend : input.last = true
          · simp [links', hend, hcallbacks, List.eraseIdx_map]
          · simp [links', hend, hcallbacks]
        · by_cases hend : input.last = true
          · simp [links', hend, hprocs, List.eraseIdx_map]
          · simp [links', hend, hprocs]
        · by_cases hend : input.last = true
          · simpa [links', hend] using hlast
          · have hsame : Heap.Owned heap
                (links[i].cell.toList ++ (links.eraseIdx i).filterMap Link.cell) := by
              simpa [hend] using hlast
            simpa [links', hend] using hsame.perm hperm.symm
      obtain ⟨next, hsend, hnext⟩ := sendEvt_refines lib hlib _ _ hmid outcome.evt hsound
      refine ⟨next, _, ?_, ?_, hnext⟩
      · simp [System.step, hcb, h.world, hrun, hsend]
      · simp [Service.step, hreq, hreport]
  · left
    have hcb : s.callbacks[i]? = none := by simp [hcallbacks]; omega
    have hreq : t.procs[i]? = none := by simp [hprocs]; omega
    simp [System.step, Service.step, hcb, hreq]

theorem access_together (lib : Externs) (hlib : lib.Prints) (s : System) (t : Service)
    (h : Refines lib s t) (attr : Gatts.Attr) (host : CbHost) (accessOp : UInt8)
    (connHandle attrHandle : UInt16) (om : Mbuf) :
    StepsTogether lib s t (.access attr host accessOp connHandle attrHandle om) := by
  cases harg : t.world.tables.attrArg attr with
  | none =>
      left
      simp [System.step, Service.step, h.world, harg]
  | some seq =>
      right
      have hsound (evt : Evt)
          (hevt : gattsAccess host accessOp connHandle attrHandle om seq = some evt) : evt.Sound :=
        (gattsAccess_sound host accessOp connHandle attrHandle om seq evt hevt).1
      obtain ⟨next, hsend, hnext⟩ := sendEvt_refines lib hlib s t h _ hsound
      refine ⟨next, _, ?_, ?_, hnext⟩
      · simp [System.step, h.world, harg, hsend]
      · simp [Service.step, harg]

-- One case for each action.
theorem step_together (lib : Externs) (hlib : lib.Prints) (s : System) (t : Service) (act : SysAct)
    (h : Refines lib s t) (hpossible : s.Possible lib act) : StepsTogether lib s t act := by
  cases act with
  | request packet junk host block =>
      exact request_together lib s t h packet junk host block hpossible
  | respond => exact respond_together lib s t h hpossible
  | callback i host input => exact callback_together lib hlib s t h i host input
  | sync synced =>
      right
      obtain ⟨next, hsend, hnext⟩ := sendEvtAsserted_refines lib hlib _ _
        (h.withWorld (t.world.withNextSeq (nextEvtSeq t.world.tables.nextSeq).2))
        (sendSyncEvt synced (nextEvtSeq t.world.tables.nextSeq).1) ⟨rfl, rfl, trivial⟩
      refine ⟨next, _, ?_, rfl, hnext⟩
      simp only [System.step, h.world, hsend]
  | reset reason =>
      right
      obtain ⟨next, hsend, hnext⟩ := sendEvtAsserted_refines lib hlib _ _
        (h.withWorld (t.world.withNextSeq (nextEvtSeq t.world.tables.nextSeq).2))
        (sendResetEvt (nextEvtSeq t.world.tables.nextSeq).1 reason) ⟨rfl, rfl, trivial⟩
      refine ⟨next, _, ?_, rfl, hnext⟩
      simp only [System.step, h.world, hsend]
  | access attr host accessOp connHandle attrHandle om =>
      exact access_together lib hlib s t h attr host accessOp connHandle attrHandle om
  | accessWake =>
      cases hwake : t.world.accessWake with
      | none =>
          left
          simp [System.step, Service.step, h.world, hwake]
      | some world =>
          right
          refine ⟨_, _, ?_, ?_, h.withWorld world⟩
          · simp [System.step, h.world, hwake]
          · simp [Service.step, hwake]
  | accessReset =>
      right
      refine ⟨_, _, ?_, rfl, h.withWorld t.world.accessReset⟩
      simp [System.step, h.world]

theorem refines_initial (lib : Externs) : Refines lib System.initial Service.initial where
  world := rfl
  pending := rfl
  links := ⟨[], rfl, rfl, Heap.owned_empty⟩
  put := rfl

-- Every run of the daemon is a run of the service.
theorem run_refines (lib : Externs) (hlib : lib.Prints) (acts : List SysAct) (s : System)
    (hrun : Transition.run (System.step lib) System.initial acts = some s) :
    ∃ t, Transition.run (Service.step lib) Service.initial acts = some t ∧ Refines lib s t := by
  have hmeets : Transition.Meets (System.step lib) (System.Possible lib) System.initial acts :=
    Transition.meets_of_run (fun _ _ hsome => Or.inr hsome) _ s acts hrun
  rcases Transition.run_together (step_together lib hlib) _ _ acts (refines_initial lib) hmeets with
    ⟨hnone, -⟩ | ⟨last, t, hlast, ht, hR⟩
  · rw [hrun] at hnone
    cases hnone
  · obtain rfl : s = last := Option.some.inj (hrun.symm.trans hlast)
    exact ⟨t, ht, hR⟩

end Blehostd
