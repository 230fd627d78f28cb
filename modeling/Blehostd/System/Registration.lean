import Blehostd.Responses.Uuids
import Blehostd.Services.Theorems
import Blehostd.System.History

namespace Blehostd

-- The requests that write the GATT tables.
def MsgType.WritesTables : MsgType → Prop
  | .addSvcs => True
  | .clearSvcs => True
  | .commitSvcs => True
  | _ => False

theorem reqDispatchFind_tables (type : MsgType) (run : ReqRun)
    (hrun : reqDispatchFind type = some run) (hother : ¬type.WritesTables) (r : Req) :
    (run r).Returns KeepsTables := by
  cases type <;> cases hrun
  case addSvcs => exact absurd trivial hother
  case clearSvcs => exact absurd trivial hother
  case commitSvcs => exact absurd trivial hother
  all_goals
    repeat
      apply returns_after
      intro _
    apply returns_done
  case sync =>
    intro host rsp world answer h
    cases h
    rfl
  case reset =>
    intro host rsp world answer h
    cases h
    rfl
  case write => exact withMbuf_tables _ _
  case writeCmd => exact withMbuf_tables _ _
  case genRandAddr => exact idGenRandAddr_tables _
  case connFind => exact gapConnFind_tables _
  case advFields => exact gapAdvFields_tables _
  case accessStatus => exact gattsAccessStatus_tables _ _ _
  case notify => exact withMbuf_tables _ _
  case findChr => exact gattsFindChr_tables _ _
  case smInjectIo => exact smInjectIo_tables _
  all_goals exact callStatus_tables _

theorem reqOutcome_tables (lib : Externs) (packet : Mbuf) (junk : Junk) (host : Host)
    (world : World) (outcome : Outcome)
    (h : reqOutcome (lib.parse (reqText packet)) junk host world = .ok outcome)
    (hother : ∀ hdr, headerOfPacket lib packet = some hdr → ¬hdr.type.WritesTables) :
    outcome.answer.world.tables = world.tables := by
  rcases reqOutcome_cases (lib.parse (reqText packet)) junk host world with
    ⟨rc, msg, seq, hdec, -⟩ | ⟨json, type, seq, run, hroot, hhdr, hrun, hdec, -⟩
  · rw [hdec] at h
    cases h
    rfl
  · have hheader : headerOfPacket lib packet = some ⟨.req, type, seq⟩ := by
      simp [headerOfPacket, hroot, hhdr, Except.toOption]
    rw [hdec] at h
    cases hresult : (run ⟨json, seq, junk⟩).result with
    | error e =>
        rw [runReq_exit run _ host _ world e hresult] at h
        cases h
        rfl
    | ok action =>
        obtain ⟨answer, hanswer, rfl⟩ := (runReq_action run _ host _ world action hresult _).mp h
        exact reqDispatchFind_tables type run hrun (hother _ hheader) _ action hresult host _ world
          answer hanswer

-- Apart from the counter of bhd_next_evt_seq.
def SameTables (s s' : Gatts.State) : Prop :=
  s' = { s with nextSeq := s'.nextSeq }

theorem sendEvt_world (lib : Externs) (evt : Option Evt) (s next : System)
    (h : System.sendEvt lib evt s = some next) : next.world = s.world := by
  cases evt with
  | none =>
      obtain rfl : s = next := Option.some.inj h
      rfl
  | some evt =>
      obtain ⟨result, -, hnext⟩ := Option.bind_eq_some_iff.mp h
      obtain rfl := Option.some.inj hnext
      rfl

theorem sendEvtAsserted_world (lib : Externs) (evt : Evt) (s next : System)
    (h : System.sendEvtAsserted lib evt s = some next) : next.world = s.world := by
  obtain ⟨result, -, hnext⟩ := Option.bind_eq_some_iff.mp h
  obtain ⟨-, hnext⟩ := Option.ite_none_right_eq_some.mp hnext
  obtain rfl := Option.some.inj hnext
  rfl

theorem System.step_request (lib : Externs) (s next : System) (packet : Mbuf) (junk : Junk)
    (host : Host) (block : Nat)
    (h : System.step lib s (.request packet junk host block) = some next) :
    ∃ outcome, reqDec (lib.parse (reqText packet)) junk host s.world = .ok outcome ∧
      next.world = outcome.answer.world ∧ next.pending = some outcome.answer.rsp := by
  cases hpending : s.pending with
  | some rsp => simp [System.step, hpending] at h
  | none =>
      simp only [System.step, hpending] at h
      obtain ⟨outcome, hdec, h⟩ := Option.bind_eq_some_iff.mp h
      obtain ⟨started, -, h⟩ := Option.bind_eq_some_iff.mp h
      obtain rfl := Option.some.inj h
      cases hresult : reqDec (lib.parse (reqText packet)) junk host s.world with
      | error fault => simp [hresult, Except.toOption] at hdec
      | ok other =>
          obtain rfl : other = outcome := by simpa [hresult, Except.toOption] using hdec
          have hret := reqOutcome_ret _ _ _ _ _ (reqDec_outcome _ _ _ hresult)
          exact ⟨other, rfl, rfl, by simp [hret]⟩

-- A step of the daemon writes the tables only for a request about them.
theorem System.step_tables (lib : Externs) (s next : System) (act : SysAct)
    (h : System.step lib s act = some next)
    (hother : ∀ hdr ∈ acceptedHdrs lib [act], ¬hdr.type.WritesTables) :
    SameTables s.world.tables next.world.tables := by
  cases act with
  | request packet junk host block =>
      obtain ⟨outcome, hdec, hworld, -⟩ := System.step_request lib s next packet junk host block h
      have hkept := reqOutcome_tables lib packet junk host s.world outcome
        (reqDec_outcome junk host s.world hdec)
        fun hdr hhdr => hother hdr (by simp [acceptedHdrs, requestPackets, SysAct.packet, hhdr])
      rw [hworld, hkept]
      rfl
  | respond =>
      obtain ⟨rsp, -, h⟩ := Option.bind_eq_some_iff.mp h
      obtain ⟨result, -, hnext⟩ := Option.bind_eq_some_iff.mp h
      obtain rfl := Option.some.inj hnext
      rfl
  | callback i host input =>
      obtain ⟨cb, -, h⟩ := Option.bind_eq_some_iff.mp h
      obtain ⟨⟨outcome, heap⟩, -, h⟩ := Option.bind_eq_some_iff.mp h
      rw [sendEvt_world lib _ _ next h]
      rfl
  | sync synced =>
      simp only [System.step] at h
      rw [sendEvtAsserted_world lib _ _ next h]
      rfl
  | reset reason =>
      simp only [System.step] at h
      rw [sendEvtAsserted_world lib _ _ next h]
      rfl
  | access attr host accessOp connHandle attrHandle om =>
      obtain ⟨seq, -, h⟩ := Option.bind_eq_some_iff.mp h
      rw [sendEvt_world lib _ s next h]
      rfl
  | accessWake =>
      obtain ⟨world, hworld, h⟩ := Option.bind_eq_some_iff.mp h
      obtain rfl := Option.some.inj h
      obtain ⟨-, hworld⟩ := Option.ite_none_right_eq_some.mp hworld
      obtain rfl := Option.some.inj hworld
      rfl
  | accessReset =>
      obtain rfl := Option.some.inj h
      rfl

theorem SameTables.trans {s mid s' : Gatts.State} (h : SameTables s mid) (h' : SameTables mid s') :
    SameTables s s' := by
  unfold SameTables at h h' ⊢
  rw [h', h]

theorem SameTables.hostSvcs {s s' : Gatts.State} (h : SameTables s s') :
    s'.hostSvcs = s.hostSvcs := by
  rw [h]
  rfl

theorem SameTables.numSvcs {s s' : Gatts.State} (h : SameTables s s') : s'.numSvcs = s.numSvcs := by
  rw [h]

theorem run_tables (lib : Externs) (acts : List SysAct) (s last : System)
    (hother : ∀ hdr ∈ acceptedHdrs lib acts, ¬hdr.type.WritesTables)
    (hrun : Transition.run (System.step lib) s acts = some last) :
    SameTables s.world.tables last.world.tables := by
  induction acts generalizing s with
  | nil =>
      obtain rfl : s = last := Option.some.inj hrun
      rfl
  | cons act rest ih =>
      obtain ⟨next, hstep, hrest⟩ := Transition.run_cons hrun
      have hsplit := acceptedHdrs_append lib [act] rest
      rw [List.singleton_append] at hsplit
      rw [hsplit] at hother
      have hfirst := System.step_tables lib s next act hstep
        fun hdr hmem => hother hdr (List.mem_append_left _ hmem)
      exact hfirst.trans (ih next (fun hdr hmem => hother hdr (List.mem_append_right _ hmem)) hrest)

-- What the host finds of the services of a request.
structure DscRegistered (item : Json) (node : Gatts.DscNode) : Prop where
  uuid : ∃ uuid, jsonUuid item "uuid" = .ok uuid ∧ node.uuid = some (.known uuid)
  attFlags : IntField item "att_flags" UINT8_MAX node.attFlags.toNat
  minKeySize : IntField item "min_key_size" UINT8_MAX node.minKeySize.toNat
  accessCb : node.accessCb = true

structure ChrRegistered (item : Json) (node : Gatts.ChrNode) : Prop where
  uuid : ∃ uuid, jsonUuid item "uuid" = .ok uuid ∧ node.uuid = some (.known uuid)
  flags : IntField item "flags" UINT16_MAX node.flags.toNat
  minKeySize : IntField item "min_key_size" UINT8_MAX node.minKeySize.toNat
  accessCb : node.accessCb = true
  dscs : ∃ items, ListField item "descriptors" items ∧ List.Forall₂ DscRegistered items node.dscs

structure SvcRegistered (item : Json) (node : Gatts.SvcNode) : Prop where
  type : ∃ type, jsonSvcType item "type" = .ok type ∧ node.type = type.code
  uuid : ∃ uuid, jsonUuid item "uuid" = .ok uuid ∧ node.uuid = some (.known uuid)
  chrs : ∃ items, ListField item "characteristics" items ∧
    List.Forall₂ ChrRegistered items node.chrs

theorem dscs_registered (seq : UInt32) (items : List Json) (dscs : List Gatts.Dsc)
    (h : List.Forall₂ DscOf items dscs) :
    List.Forall₂ DscRegistered items (Gatts.dscNodesOf seq dscs) := by
  induction h generalizing seq with
  | nil => exact .nil
  | cons hdsc _ ih =>
      obtain ⟨⟨uuid, huuid, hknown⟩, hflags, hsize⟩ := hdsc
      exact .cons ⟨⟨uuid, huuid, congrArg some hknown⟩, hflags, hsize, rfl⟩ (ih _)

theorem chrs_registered (seq : UInt32) (slot : Nat) (items : List Json) (chrs : List Gatts.Chr)
    (h : List.Forall₂ ChrOf items chrs) :
    List.Forall₂ ChrRegistered items (Gatts.chrNodesOf seq slot chrs) := by
  induction h generalizing seq slot with
  | nil => exact .nil
  | cons hchr _ ih =>
      obtain ⟨huuid, hflags, hsize, dscItems, hitems, hdscs⟩ := hchr
      exact .cons ⟨⟨_, huuid, rfl⟩, hflags, hsize, rfl, dscItems, hitems,
        dscs_registered _ dscItems _ hdscs⟩ (ih _ _)

theorem svcs_registered (seq : UInt32) (slot : Nat) (items : List Json) (svcs : List Gatts.Svc)
    (h : List.Forall₂ SvcOf items svcs) :
    List.Forall₂ SvcRegistered items (Gatts.svcNodesOf seq slot svcs) := by
  induction h generalizing seq slot with
  | nil => exact .nil
  | cons hsvc _ ih =>
      obtain ⟨htype, huuid, chrItems, hitems, hchrs⟩ := hsvc
      exact .cons ⟨⟨_, htype, rfl⟩, ⟨_, huuid, rfl⟩, chrItems, hitems,
        chrs_registered _ _ chrItems _ hchrs⟩ (ih _ _)

-- What the client is told of what the host has registered. A UUID comes back in a form that
-- the requests take.
structure ChrReported (valHandles : Nat → UInt16) (node : Gatts.ChrNode) (entry : Json) :
    Prop where
  uuid : ∃ uuid, node.uuid = some (.known uuid) ∧ jsonUuid entry "uuid" = .ok uuid
  handles : ∃ slot, node.valHandle = some slot ∧
    entry.getObjectItem "val_handle" = some (.number (valHandles slot).toNat) ∧
    entry.getObjectItem "def_handle" = some (.number (valHandles slot - 1).toNat)

structure SvcReported (valHandles : Nat → UInt16) (node : Gatts.SvcNode) (entry : Json) :
    Prop where
  uuid : ∃ uuid, node.uuid = some (.known uuid) ∧ jsonUuid entry "uuid" = .ok uuid
  chrs : ∃ entries, entry.getObjectItem "characteristics" = some (.array entries) ∧
    List.Forall₂ (ChrReported valHandles) node.chrs entries

section Reporting

variable (uuidToStr : Uuid → Text)
  (hstr : ∀ value, uuidToStr (.u128 value) = canonicalUuid (.u128 value))

include hstr

theorem uuid_reported (parent : Json) (uuid : Uuid) (h : jsonUuid parent "uuid" = .ok uuid) :
    ∃ created, createUuid uuidToStr (.known uuid) = .ok created ∧
      processJsonUuid created = .ok uuid := by
  unfold jsonUuid member at h
  cases hitem : parent.getObjectItem "uuid" with
  | none =>
      rw [hitem] at h
      cases h
  | some item =>
      rw [hitem] at h
      exact created_uuid_read uuidToStr hstr item uuid h

theorem chr_reported (valHandles : Nat → UInt16) (seq : UInt32) (slot : Nat) (item : Json)
    (chr : Gatts.Chr) (h : ChrOf item chr) :
    ∃ entry, createCommitChr uuidToStr (Gatts.ListedChr.entry ⟨chr.uuid, valHandles slot⟩) =
        .ok entry ∧ ChrReported valHandles (Gatts.chrNodeOf seq slot chr) entry := by
  obtain ⟨created, hcreated, hread⟩ := uuid_reported uuidToStr hstr item chr.uuid h.uuid
  have hentry : createCommitChr uuidToStr (Gatts.ListedChr.entry ⟨chr.uuid, valHandles slot⟩) =
      .ok (.object (addItem "uuid" created ++ addInt "def_handle" (valHandles slot - 1).toNat ++
        addInt "val_handle" (valHandles slot).toNat ++ addItem "descriptors" (.array []))) := by
    simp only [createCommitChr, Gatts.ListedChr.entry, hcreated, List.mapM_nil, bind, Except.bind]
    rfl
  exact ⟨_, hentry, ⟨chr.uuid, rfl, hread⟩, slot, rfl, rfl, rfl⟩

theorem chrs_reported (valHandles : Nat → UInt16) (seq : UInt32) (slot : Nat)
    (items : List Json) (chrs : List Gatts.Chr) (h : List.Forall₂ ChrOf items chrs) :
    ∃ entries, ((Gatts.listedChrs valHandles slot chrs).map Gatts.ListedChr.entry).mapM
        (createCommitChr uuidToStr) = .ok entries ∧
      List.Forall₂ (ChrReported valHandles) (Gatts.chrNodesOf seq slot chrs) entries := by
  induction h generalizing seq slot with
  | nil => exact ⟨[], rfl, .nil⟩
  | @cons item chr items chrs hchr _ ih =>
      obtain ⟨entry, hentry, hfirst⟩ :=
        chr_reported uuidToStr hstr valHandles seq slot item chr hchr
      obtain ⟨entries, hentries, hrest⟩ := ih (Gatts.seqAfterChr seq chr) (slot + 1)
      refine ⟨entry :: entries, ?_, .cons hfirst hrest⟩
      rw [Gatts.listedChrs, List.map_cons, List.mapM_cons, hentry, hentries]
      rfl

theorem svc_reported (valHandles : Nat → UInt16) (seq : UInt32) (slot : Nat) (item : Json)
    (svc : Gatts.Svc) (h : SvcOf item svc) :
    ∃ entry, createCommitSvc uuidToStr
        (Gatts.ListedSvc.entry ⟨svc.uuid, Gatts.listedChrs valHandles slot svc.chrs⟩) =
          .ok entry ∧ SvcReported valHandles (Gatts.svcNodeOf seq slot svc) entry := by
  obtain ⟨created, hcreated, hread⟩ := uuid_reported uuidToStr hstr item svc.uuid h.uuid
  obtain ⟨items, -, hchrs⟩ := h.chrs
  obtain ⟨chrs, hentries, hreported⟩ :=
    chrs_reported uuidToStr hstr valHandles seq slot items svc.chrs hchrs
  have hentry : createCommitSvc uuidToStr
      (Gatts.ListedSvc.entry ⟨svc.uuid, Gatts.listedChrs valHandles slot svc.chrs⟩) =
        .ok (.object (addItem "uuid" created ++ addInt "handle" 0 ++
          addItem "characteristics" (.array chrs))) := by
    simp only [createCommitSvc, Gatts.ListedSvc.entry, hcreated, hentries, bind, Except.bind]
    rfl
  exact ⟨_, hentry, ⟨svc.uuid, rfl, hread⟩, chrs, rfl, hreported⟩

theorem svcs_reported (valHandles : Nat → UInt16) (seq : UInt32) (slot : Nat)
    (items : List Json) (svcs : List Gatts.Svc) (h : List.Forall₂ SvcOf items svcs) :
    ∃ entries, ((Gatts.listedSvcs valHandles slot svcs).map Gatts.ListedSvc.entry).mapM
        (createCommitSvc uuidToStr) = .ok entries ∧
      List.Forall₂ (SvcReported valHandles) (Gatts.svcNodesOf seq slot svcs) entries := by
  induction h generalizing seq slot with
  | nil => exact ⟨[], rfl, .nil⟩
  | @cons item svc items svcs hsvc _ ih =>
      obtain ⟨entry, hentry, hfirst⟩ :=
        svc_reported uuidToStr hstr valHandles seq slot item svc hsvc
      obtain ⟨entries, hentries, hrest⟩ :=
        ih (Gatts.seqAfterChrs seq svc.chrs) (slot + svc.chrs.length)
      refine ⟨entry :: entries, ?_, .cons hfirst hrest⟩
      rw [Gatts.listedSvcs, List.map_cons, List.mapM_cons, hentry, hentries]
      rfl

end Reporting

-- The daemon accepts an add_svcs request with these services.
structure AddsSvcs (lib : Externs) (items : List Json) (s : System) (act : SysAct)
    (next : System) : Prop where
  step : System.step lib s act = some next
  request : ∃ packet root hdr, act.packet = some packet ∧ lib.parse (reqText packet) = some root ∧
    msgHdrDec root = .ok hdr ∧ hdr.type = .addSvcs ∧ jsonArr root "services" = .ok items
  accepted : ∃ rsp, next.pending = some rsp ∧ rsp.status = 0

theorem addSvcsReqRun_svcs (r : Req) (items : List Json) (action : Action)
    (hitems : jsonArr r.parent "services" = .ok items)
    (hdscs : ∀ item ∈ items, ¬ReachesDsc item) (h : (addSvcsReqRun r).result = .ok action) :
    ∃ svcs, List.Forall₂ SvcOf items svcs ∧ action = gattsAddSvcs svcs := by
  unfold addSvcsReqRun addSvcsDec at h
  simp only [Decoder.bind_result_ok, need_ok_iff] at h
  obtain ⟨svcs, ⟨arr, harr, hsvcs⟩, haction⟩ := h
  obtain rfl : items = arr := Except.ok.inj (hitems.symm.trans harr)
  obtain rfl := Except.ok.inj haction
  cases heach : (Decoder.each (fun si item => jsonSvc (r.junk.dscs si) item) 0 items).result with
  | error e => simp [Decoder.mapExit, heach, Except.mapError] at hsvcs
  | ok decoded =>
      obtain rfl : decoded = svcs := by simpa [Decoder.mapExit, heach, Except.mapError] using hsvcs
      refine ⟨decoded, (Decoder.each_related _ _ _ _ heach).imp ?_, rfl⟩
      intro item svc hsvc
      obtain ⟨hmem, si, hresult⟩ := hsvc
      exact svcOf_of_ok item _ svc hresult (hdscs item hmem)

theorem AddsSvcs.stored {lib : Externs} {items : List Json} {s next : System} {act : SysAct}
    (h : AddsSvcs lib items s act next) (hdscs : ∀ item ∈ items, ¬ReachesDsc item) :
    ∃ svcs, List.Forall₂ SvcOf items svcs ∧
      Gatts.addSvcs svcs s.world.tables = .ok (0, next.world.tables) := by
  obtain ⟨packet, root, hdr, hpacket, hroot, hhdr', htype, hitems⟩ := h.request
  obtain ⟨rsp, hrsp, hstatus⟩ := h.accepted
  obtain ⟨junk, host, block, rfl⟩ : ∃ junk host block, act = .request packet junk host block := by
    cases act with
    | request other junk host block =>
        obtain rfl := Option.some.inj hpacket
        exact ⟨junk, host, block, rfl⟩
    | _ => cases hpacket
  obtain ⟨outcome, hdec, hworld, hpending⟩ :=
    System.step_request lib s next packet junk host block h.step
  obtain rfl : outcome.answer.rsp = rsp := Option.some.inj (hpending.symm.trans hrsp)
  rw [hworld]
  rw [hroot] at hdec
  have hdec := reqDec_outcome junk host s.world hdec
  rcases reqOutcome_cases (some root) junk host s.world with
    ⟨rc, msg, seq, hcase, hrecorded⟩ | ⟨json, type, seq, run, hjson, hhdr, hrun, hcase, -⟩
  · have hne := recorded_ne_zero (some root) junk rc ((hrecorded rc).mpr rfl)
    rw [hcase] at hdec
    cases hdec
    exact absurd hstatus hne
  · obtain rfl := Option.some.inj hjson
    obtain rfl := Except.ok.inj (hhdr.symm.trans hhdr')
    subst htype
    obtain rfl : addSvcsReqRun = run := Option.some.inj hrun
    rw [hcase] at hdec
    cases hresult : (addSvcsReqRun ⟨root, seq, junk⟩).result with
    | error e =>
        rw [runReq_exit _ _ host _ s.world e hresult] at hdec
        cases hdec
        rw [Exit.apply_status] at hstatus
        exact absurd hstatus e.rc.code_ne_zero
    | ok action =>
        obtain ⟨svcs, hsvcs, rfl⟩ := addSvcsReqRun_svcs _ items action hitems hdscs hresult
        obtain ⟨answer, hanswer, rfl⟩ :=
          (runReq_action _ _ host _ s.world _ hresult _).mp hdec
        obtain ⟨⟨status, tables⟩, hadd, hlast⟩ := (bind_ok _ _ _).mp hanswer
        obtain rfl := Except.ok.inj hlast
        obtain rfl : status = 0 := hstatus
        exact ⟨svcs, hsvcs, hadd⟩

-- A commit that the host takes answers with the services that the tables list.
theorem commit_accepted (lib : Externs) (s : System) (packet : Mbuf) (junk : Junk) (host : Host)
    (block : Nat) (seq : UInt32) (listed : List Gatts.ListedSvc) (hpending : s.pending = none)
    (hcommit : IsCommit (lib.parse (reqText packet)) seq) (hok : (commitEnv host).Succeeds)
    (hnum : s.world.tables.numSvcs = listed.length + 1)
    (hlists : Gatts.ListsSvcs { s.world.tables with valHandles := host.valHandles } 0 listed) :
    ∃ next, System.step lib s (.request packet junk host block) = some next ∧
      next.pending = some { Rsp.cleared .commitSvcs seq with
        body := .commitSvcs (listed.map Gatts.ListedSvc.entry) } := by
  have hloop := Gatts.commitLoop_lists (commitEnv host) _ 0 listed hlists
    fun si _ _ => hok.callocChrs si
  have hlength : s.world.tables.numSvcs - 1 = listed.length := by omega
  rw [← hlength] at hloop
  have hanswer := (gattsCommitSvcs_iff host (Rsp.cleared .commitSvcs seq) s.world hok.starts
    (by omega) _).mpr ⟨_, hloop, rfl⟩
  have hdec := reqDec_commit _ seq junk host s.world hcommit
  rw [hanswer] at hdec
  have hcalls := startCalls_quiet host block (commitCalls (commitEnv host) s.world.tables) s.heap
    (commitCalls_quiet _ _)
  simp only [System.step, hpending, hdec, Except.map, Except.toOption, Option.bind_eq_bind,
    Option.bind_some, hcalls]
  exact ⟨_, rfl, rfl⟩

-- Numbers drawn since the request leave the records as they are.
theorem listsSvcs_later (svcs : List Gatts.Svc) (nextSeq : UInt32) (s later : Gatts.State)
    (valHandles : Nat → UInt16)
    (h : Gatts.addSvcs svcs (Gatts.State.zeroed nextSeq) = .ok (0, s)) (hsame : SameTables s later)
    (hfull : ∀ svc ∈ svcs, svc.chrs ≠ []) :
    Gatts.ListsSvcs { later with valHandles := valHandles } 0
      (Gatts.listedSvcs valHandles 0 svcs) := by
  have hadded := Gatts.addSvcs_added svcs _ s h
  have hgrows : Gatts.Grows s { s with nextSeq := later.nextSeq, valHandles := valHandles } :=
    { Gatts.Grows.refl s with }
  have hwithin : Gatts.Within { s with nextSeq := later.nextSeq, valHandles := valHandles } :=
    { hadded.within with }
  rw [hsame]
  exact Gatts.listsSvcs_stored nextSeq _ 0 0 0 nextSeq 0 svcs (hadded.stored.grows hgrows) hwithin
    hfull

-- A service with characteristics, none of which has descriptors.
structure Committable (item : Json) : Prop where
  chrs : ∃ chr rest, ListField item "characteristics" (chr :: rest)
  dscs : ¬ReachesDsc item

theorem Committable.full {items : List Json} {svcs : List Gatts.Svc}
    (hitems : ∀ item ∈ items, Committable item) (h : List.Forall₂ SvcOf items svcs) :
    ∀ svc ∈ svcs, svc.chrs ≠ [] := by
  induction h with
  | nil => simp
  | @cons item svc items svcs hsvc _ ih =>
      obtain ⟨chr, rest, hlist⟩ := (hitems item List.mem_cons_self).chrs
      obtain ⟨chrItems, hchrItems, hchrs⟩ := hsvc.chrs
      obtain rfl := hlist.unique hchrItems
      have hrest := ih fun other hmem => hitems other (List.mem_cons_of_mem _ hmem)
      rw [List.forall_mem_cons]
      refine ⟨?_, hrest⟩
      intro hnil
      rw [hnil] at hchrs
      cases hchrs

-- A run with one request about the tables, which has added these services.
structure AddsOnce (lib : Externs) (items : List Json) (acts : List SysAct) (s : System) :
    Prop where
  run : ∃ before act between mid added, acts = before ++ act :: between ∧
    Transition.run (System.step lib) System.initial before = some mid ∧
    AddsSvcs lib items mid act added ∧
    Transition.run (System.step lib) added between = some s ∧
    ∀ hdr ∈ acceptedHdrs lib before ++ acceptedHdrs lib between, ¬hdr.type.WritesTables

theorem AddsOnce.stored {lib : Externs} {items : List Json} {acts : List SysAct} {s : System}
    (h : AddsOnce lib items acts s) (hdscs : ∀ item ∈ items, ¬ReachesDsc item) :
    ∃ svcs nextSeq tables, List.Forall₂ SvcOf items svcs ∧
      Gatts.addSvcs svcs (Gatts.State.zeroed nextSeq) = .ok (0, tables) ∧
      SameTables tables s.world.tables := by
  obtain ⟨before, act, between, mid, added, -, hbefore, hadds, hbetween, hother⟩ := h.run
  have hmid : mid.world.tables = Gatts.State.zeroed mid.world.tables.nextSeq :=
    run_tables lib before _ mid (fun hdr hmem => hother hdr (List.mem_append_left _ hmem)) hbefore
  obtain ⟨svcs, hsvcs, hstored⟩ := hadds.stored hdscs
  rw [hmid] at hstored
  exact ⟨svcs, _, _, hsvcs, hstored, run_tables lib between added s
    (fun hdr hmem => hother hdr (List.mem_append_right _ hmem)) hbetween⟩

-- From the services of an add_svcs request to those of a commit_svcs response: the host finds
-- each of them in the tables as the request has it, and the client gets back what the host
-- has found, whatever the daemon does before and in between.
theorem services_registered (lib : Externs)
    (hstr : ∀ value, lib.uuidToStr (.u128 value) = canonicalUuid (.u128 value))
    (items : List Json) (hitems : ∀ item ∈ items, Committable item) (acts : List SysAct)
    (s : System) (h : AddsOnce lib items acts s) (hanswered : s.pending = none) (commit : Mbuf)
    (junk : Junk) (host : Host) (block : Nat) (seq : UInt32)
    (hcommit : IsCommit (lib.parse (reqText commit)) seq) (hgranted : host.Granted)
    (hregisters : host.Registers) :
    ∃ tree next rsp response entries,
      s.world.tables.hostSvcs = some tree ∧ List.Forall₂ SvcRegistered items tree ∧
      System.step lib s (.request commit junk host block) = some next ∧
      next.pending = some rsp ∧ rsp.hdr = ⟨.rsp, .commitSvcs, seq⟩ ∧
      rspEnc lib.uuidToStr rsp = .ok response ∧
      response.getObjectItem "status" = some (.number 0) ∧
      response.getObjectItem "services" = some (.array entries) ∧
      List.Forall₂ (SvcReported host.valHandles) tree entries := by
  obtain ⟨svcs, nextSeq, tables, hsvcs, hstored, hsame⟩ :=
    h.stored fun item hmem => (hitems item hmem).dscs
  have hlists := listsSvcs_later svcs nextSeq tables _ host.valHandles hstored hsame
    (Committable.full hitems hsvcs)
  have htree : s.world.tables.hostSvcs = some (Gatts.svcNodesOf nextSeq 0 svcs) := by
    rw [hsame.hostSvcs]
    exact Gatts.hostSvcs_zeroed nextSeq tables svcs (Gatts.addSvcs_added svcs _ _ hstored)
      (Gatts.addSvcs_stale svcs _ _ hstored (Gatts.stale_zeroed nextSeq))
  have hnum : s.world.tables.numSvcs = (Gatts.listedSvcs host.valHandles 0 svcs).length + 1 := by
    rw [hsame.numSvcs, Gatts.listedSvcs_length]
    exact Gatts.numSvcs_added svcs nextSeq tables hstored
  obtain ⟨next, hnext, hpending⟩ := commit_accepted lib s commit junk host block seq _ hanswered
    hcommit (granted_succeeds host hgranted hregisters) hnum hlists
  obtain ⟨entries, hentries, hreported⟩ :=
    svcs_reported lib.uuidToStr hstr host.valHandles nextSeq 0 items svcs hsvcs
  have hresponse : rspEnc lib.uuidToStr { Rsp.cleared .commitSvcs seq with
      body := .commitSvcs ((Gatts.listedSvcs host.valHandles 0 svcs).map
        Gatts.ListedSvc.entry) } =
      .ok (.object (msgHdrEnc ⟨.rsp, .commitSvcs, seq⟩ ++
        (addInt "status" 0 ++ addItem "services" (.array entries)))) := by
    simp only [rspEnc, Rsp.cleared, rspDispatchFind, commitSvcsRspEnc, commitSvcsOf, hentries, bind,
      Except.bind]
  exact ⟨_, next, _, _, entries, htree, svcs_registered nextSeq 0 items svcs hsvcs, hnext, hpending,
    rfl, hresponse, rfl, rfl, hreported⟩

def registryExterns : Externs :=
  ⟨fun text => some (if text = [1] then wideRequest 1 else commitRequest), Json.layout 0,
    canonicalUuid⟩

theorem wideService_committable : Committable (wideService 1) := by
  have hchrs : ListField (wideService 1) "characteristics" [plainChr] := Or.inl rfl
  have hdscs : ListField plainChr "descriptors" [] := Or.inr ⟨rfl, rfl⟩
  refine ⟨⟨plainChr, [], hchrs⟩, ?_⟩
  intro hreaches
  obtain ⟨-, before, item, after, hlist, -, -, items, hitems, hsome⟩ := hreaches
  have hmem : item ∈ [plainChr] := by
    rw [hchrs.unique hlist]
    simp
  obtain rfl := List.mem_singleton.mp hmem
  exact hsome (hitems.unique hdscs)

theorem registryExterns_parsed :
    registryExterns.parse (reqText [1]) = some (wideRequest 1) := by
  simp [registryExterns, reqText]

-- One service is added, and the response is queued.
theorem wideService_added : ∃ s, AddsOnce registryExterns [wideService 1]
    [.request [1] zeroJunk acceptingHost 5, .respond] s ∧ s.pending = none := by
  have hfits : Gatts.verifyResourceCnt [wideSvc 1] Gatts.State.initial = 0 := by decide +kernel
  obtain ⟨tables, hadd⟩ := (Gatts.addSvcs_total [wideSvc 1] Gatts.State.initial).resolve_left
    fun hrefused => hrefused.1 hfits
  have haction := gattsAddSvcs_of [wideSvc 1] acceptingHost (Rsp.cleared .addSvcs 1) World.initial
    0 tables hadd
  have hrun : reqOutcome (some (wideRequest 1)) zeroJunk acceptingHost World.initial =
      .ok ⟨1, ⟨Rsp.cleared .addSvcs 1, ⟨tables, Gatts.Access.initial⟩, []⟩⟩ :=
    (runReq_action addSvcsReqRun _ acceptingHost (Rsp.cleared .addSvcs 1) World.initial _
      (wideRequest_decoded 1) _).mpr ⟨_, haction, rfl⟩
  have hdec := (reqDec_inside _ _ _ (wideRequest_inside 1)).trans hrun
  have hstep : System.step registryExterns System.initial
      (.request [1] zeroJunk acceptingHost 5) =
        some ⟨⟨tables, Gatts.Access.initial⟩, some (Rsp.cleared .addSvcs 1), Heap.empty, [],
          []⟩ := by
    simp only [System.step, System.initial, registryExterns_parsed, hdec]
    rfl
  obtain ⟨root, hroot⟩ := rspEnc_total registryExterns.uuidToStr (Rsp.cleared .addSvcs 1)
    ⟨_, rfl⟩ rfl
  obtain ⟨rc, hsend⟩ := rspSend_frames registryExterns _ [] root hroot
  have hrespond : Transition.run (System.step registryExterns)
      ⟨⟨tables, Gatts.Access.initial⟩, some (Rsp.cleared .addSvcs 1), Heap.empty, [], []⟩
      [.respond] = some ⟨⟨tables, Gatts.Access.initial⟩, none, Heap.empty, [],
        [] ++ Message.frames registryExterns (.rsp (Rsp.cleared .addSvcs 1))⟩ := by
    simp only [Transition.run, System.step, Option.bind_eq_bind, Option.bind_some, hsend,
      Except.toOption]
  have hadds : AddsSvcs registryExterns [wideService 1] System.initial
      (.request [1] zeroJunk acceptingHost 5)
      ⟨⟨tables, Gatts.Access.initial⟩, some (Rsp.cleared .addSvcs 1), Heap.empty, [], []⟩ :=
    ⟨hstep, ⟨[1], wideRequest 1, ⟨.req, .addSvcs, 1⟩, rfl, registryExterns_parsed, rfl, rfl, rfl⟩,
      _, rfl, rfl⟩
  refine ⟨_, ⟨[], _, [.respond], System.initial, _, rfl, rfl, hadds, hrespond, ?_⟩, rfl⟩
  intro hdr hmem
  exact absurd hmem List.not_mem_nil

theorem wideService_registered : ∃ s next rsp response,
    AddsOnce registryExterns [wideService 1] [.request [1] zeroJunk acceptingHost 5, .respond] s ∧
    System.step registryExterns s (.request [2] zeroJunk acceptingHost 6) = some next ∧
    next.pending = some rsp ∧ rspEnc canonicalUuid rsp = .ok response ∧
    response.getObjectItem "status" = some (.number 0) := by
  obtain ⟨s, hadded, hnone⟩ := wideService_added
  have hitems : ∀ item ∈ [wideService 1], Committable item := by
    intro item hmem
    obtain rfl := List.mem_singleton.mp hmem
    exact wideService_committable
  obtain ⟨_, next, rsp, response, _, _, _, hnext, hpending, _, hresponse, hstatus, _⟩ :=
    services_registered registryExterns (fun _ => rfl) [wideService 1] hitems _ s hadded hnone [2]
      zeroJunk acceptingHost 6 2 ⟨commitRequest, rfl, rfl⟩ acceptingHost_granted
      acceptingHost_registers
  exact ⟨s, next, rsp, response, hadded, hnext, hpending, hresponse, hstatus⟩

end Blehostd
