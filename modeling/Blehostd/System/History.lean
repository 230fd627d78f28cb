import Mathlib.Data.List.Forall2
import Blehostd.Daemon.Numbering
import Blehostd.System.Refinement

namespace Blehostd

def SysAct.packet : SysAct → Option Mbuf
  | .request packet _ _ _ => some packet
  | _ => none

def requestPackets (acts : List SysAct) : List Mbuf :=
  acts.filterMap SysAct.packet

-- The headers of the packets of a run that have one, also of those that are refused later.
def acceptedHdrs (lib : Externs) (acts : List SysAct) : List MsgHdr :=
  (requestPackets acts).filterMap (headerOfPacket lib)

def Message.response : Message → Option Rsp
  | .rsp r => some r
  | .evt _ => none

def Message.event : Message → Option Evt
  | .rsp _ => none
  | .evt e => some e

def responses (sent : List Message) : List Rsp :=
  sent.filterMap Message.response

-- The response of a request carries its number, or 0 when its header was not decoded.
structure AnswersPacket (lib : Externs) (packet : Mbuf) (rsp : Rsp) : Prop where
  op : rsp.hdr.op = .rsp
  seq : rsp.hdr.seq = ((headerOfPacket lib packet).map MsgHdr.seq).getD 0
  type : rsp.hdr.type = .err ∨
    ∃ hdr, headerOfPacket lib packet = some hdr ∧ rsp.hdr.type = hdr.type

-- A sync, reset, notify_rx or access event with a number of bhd_next_evt_seq.
structure Evt.Drawn (evt : Evt) : Prop where
  type : evt.hdr.type ∈ drawnTypes
  lower : BHD_SEQ_EVT_MIN ≤ evt.hdr.seq
  upper : evt.hdr.seq ≤ BHD_SEQ_MAX

def Evt.Caused (lib : Externs) (acts : List SysAct) (evt : Evt) : Prop :=
  (∃ req ∈ acceptedHdrs lib acts, evt.Solicited req) ∨ evt.Drawn

-- A response that is no listing of services has an encoder and will be short.
def Rsp.Short (rsp : Rsp) : Prop :=
  rsp.hdr.type ≠ .commitSvcs → rsp.Modest ∧ ∃ enc, rspDispatchFind rsp.hdr.type = .ok enc

-- What the actions so far say about the service: where its procedures and its events come
-- from, and which responses it has made.
structure Explained (lib : Externs) (acts : List SysAct) (t : Service) : Prop where
  numbers : EventNumbers t.world.tables
  procs : ∀ req ∈ t.procs, req ∈ acceptedHdrs lib acts
  events : ∀ evt, Message.evt evt ∈ t.sent → evt.Sound ∧ evt.Caused lib acts
  answers : List.Forall₂ (AnswersPacket lib) (requestPackets acts)
    (responses t.sent ++ t.pending.toList)
  short : ∀ rsp ∈ responses t.sent ++ t.pending.toList, rsp.Short

theorem reqOutcome_answers (lib : Externs) (packet : Mbuf) (junk : Junk) (host : Host)
    (world : World) (outcome : Outcome)
    (h : reqOutcome (lib.parse (reqText packet)) junk host world = .ok outcome) :
    AnswersPacket lib packet outcome.answer.rsp := by
  rcases reqOutcome_cases (lib.parse (reqText packet)) junk host world with
    ⟨rc, msg, seq, hdec, -⟩ | ⟨json, type, seq, run, hroot, hhdr, hrun, hdec, -⟩
  · have hrsp := Except.ok.inj (h.symm.trans hdec)
    have hop : outcome.answer.rsp.hdr.op = .rsp := by rw [hrsp]; rfl
    have htype : outcome.answer.rsp.hdr.type = .err := by rw [hrsp]; rfl
    refine ⟨hop, ?_, Or.inl htype⟩
    cases hroot : lib.parse (reqText packet) with
    | none =>
        rw [hroot] at h
        cases h
        simp [headerOfPacket, hroot, errRsp, errBuild, Rsp.cleared]
    | some json =>
        rw [hroot] at h
        cases hhdr : msgHdrDec json with
        | error e =>
            simp only [reqOutcome, hhdr] at h
            cases h
            simp [headerOfPacket, hroot, hhdr, Except.toOption, errRsp, errBuild, Rsp.cleared]
        | ok hdr =>
            have hseq := reqOutcome_seq json junk host world outcome hdr hhdr h
            simp [headerOfPacket, hroot, hhdr, Except.toOption, hseq]
  · have hheader : headerOfPacket lib packet = some ⟨.req, type, seq⟩ := by
      simp [headerOfPacket, hroot, hhdr, Except.toOption]
    have hseq : outcome.answer.rsp.hdr.seq = seq := by
      rw [hroot] at h
      exact reqOutcome_seq json junk host world outcome _ hhdr h
    rw [hdec] at h
    obtain ⟨-, hop, htype⟩ := runReq_hdr type run hrun ⟨json, seq, junk⟩ host world outcome h
    refine ⟨hop, by rw [hheader, hseq]; rfl, ?_⟩
    rcases htype with hsame | herr
    · exact Or.inr ⟨_, hheader, hsame⟩
    · exact Or.inl herr

theorem reqOutcome_short (root : Option Json) (junk : Junk) (host : Host) (world : World)
    (outcome : Outcome) (h : reqOutcome root junk host world = .ok outcome) :
    outcome.answer.rsp.Short := by
  intro htype
  by_cases hcommit : ∃ seq, IsCommit root seq
  · exfalso
    obtain ⟨seq, hseq⟩ := hcommit
    rw [reqOutcome_commit root seq junk host world hseq] at h
    cases hanswer : gattsCommitSvcs host (Rsp.cleared .commitSvcs seq) world with
    | error fault =>
        rw [hanswer] at h
        cases h
    | ok answer =>
        rw [hanswer] at h
        obtain rfl := Except.ok.inj h
        exact htype (congrArg MsgHdr.type (gattsCommitSvcs_seq host _ world answer hanswer))
  · obtain ⟨other, hother, hplain⟩ := reqOutcome_plain root junk host world (not_exists.mp hcommit)
    obtain rfl := Except.ok.inj (h.symm.trans hother)
    exact ⟨hplain.modest, hplain.enc⟩

theorem evtSeq_drawn (n : Nat) (evt : Evt) (htype : evt.hdr.type ∈ drawnTypes)
    (hseq : evt.hdr.seq = evtSeq n) : evt.Drawn := by
  obtain ⟨hlower, hupper⟩ := evtSeq_range n
  refine ⟨htype, ?_, ?_⟩
  · rw [hseq, UInt32.le_iff_toNat_le]
    exact hlower
  · rw [hseq, UInt32.le_iff_toNat_le]
    exact hupper

theorem EventNumbers.withNextSeq {world : World} (h : EventNumbers world.tables) :
    EventNumbers (world.withNextSeq (nextEvtSeq world.tables.nextSeq).2).tables :=
  h.draw rfl fun _ _ ha => Or.inr ha

theorem requestPackets_append (first rest : List SysAct) :
    requestPackets (first ++ rest) = requestPackets first ++ requestPackets rest :=
  List.filterMap_append

theorem acceptedHdrs_append (lib : Externs) (first rest : List SysAct) :
    acceptedHdrs lib (first ++ rest) = acceptedHdrs lib first ++ acceptedHdrs lib rest := by
  simp [acceptedHdrs, requestPackets_append]

theorem Evt.Caused.later {lib : Externs} {acts : List SysAct} {evt : Evt}
    (h : evt.Caused lib acts) (act : SysAct) : evt.Caused lib (acts ++ [act]) := by
  rcases h with ⟨req, hmem, hsolicited⟩ | hdrawn
  · left
    refine ⟨req, ?_, hsolicited⟩
    rw [acceptedHdrs_append]
    exact List.mem_append_left _ hmem
  · exact Or.inr hdrawn

-- An action that is not a request.
theorem Explained.later {lib : Externs} {acts : List SysAct} {t : Service}
    (h : Explained lib acts t) (act : SysAct) (hact : act.packet = none) :
    Explained lib (acts ++ [act]) t where
  numbers := h.numbers
  procs req hreq := by
    rw [acceptedHdrs_append]
    exact List.mem_append_left _ (h.procs req hreq)
  events evt hevt := ⟨(h.events evt hevt).1, (h.events evt hevt).2.later act⟩
  answers := by
    have hnone : requestPackets [act] = [] := by simp [requestPackets, hact]
    rw [requestPackets_append, hnone, List.append_nil]
    exact h.answers
  short := h.short

theorem responses_send (t : Service) (evt : Option Evt) :
    responses (t.send evt).sent = responses t.sent := by
  cases evt <;> simp [Service.send, responses, Message.response]

theorem Explained.send {lib : Externs} {acts : List SysAct} {t : Service}
    (h : Explained lib acts t) (evt : Option Evt)
    (hevt : ∀ e, evt = some e → e.Sound ∧ e.Caused lib acts) : Explained lib acts (t.send evt) where
  numbers := h.numbers
  procs := h.procs
  events e he := by
    rcases List.mem_append.mp he with hold | hnew
    · exact h.events e hold
    · cases evt with
      | none => exact absurd hnew List.not_mem_nil
      | some other =>
          obtain rfl := Message.evt.inj (List.mem_singleton.mp hnew)
          exact hevt e rfl
  answers := by
    rw [responses_send]
    exact h.answers
  short := by
    rw [responses_send]
    exact h.short

theorem Explained.withState {lib : Externs} {acts : List SysAct} {t : Service}
    (h : Explained lib acts t) (world : World) (procs : List MsgHdr)
    (hnumbers : EventNumbers world.tables) (hprocs : ∀ req ∈ procs, req ∈ t.procs) :
    Explained lib acts { t with world := world, procs := procs } where
  numbers := hnumbers
  procs req hreq := h.procs req (hprocs req hreq)
  events := h.events
  answers := h.answers
  short := h.short

theorem request_explained (lib : Externs) (acts : List SysAct) (t next : Service)
    (h : Explained lib acts t) (packet : Mbuf) (junk : Junk) (host : Host) (block : Nat)
    (hstep : Service.step lib t (.request packet junk host block) = some next) :
    Explained lib (acts ++ [.request packet junk host block]) next := by
  cases hpending : t.pending with
  | some rsp => simp [Service.step, hpending] at hstep
  | none =>
      cases hdec : reqOutcome (lib.parse (reqText packet)) junk host t.world with
      | error fault => simp [Service.step, hpending, hdec, Except.toOption] at hstep
      | ok outcome =>
          have hanswers := reqOutcome_answers lib packet junk host t.world outcome hdec
          have hnumbers := reqOutcome_numbers _ _ _ _ _ hdec h.numbers
          have hshort := reqOutcome_short _ _ _ _ _ hdec
          simp only [Service.step, hpending, hdec, Except.toOption, Option.bind_eq_bind,
            Option.bind_some] at hstep
          obtain rfl := Option.some.inj hstep
          refine ⟨hnumbers, ?_, ?_, ?_, ?_⟩
          · intro req hreq
            rw [acceptedHdrs_append]
            rcases List.mem_append.mp hreq with hold | hnew
            · exact List.mem_append_left _ (h.procs req hold)
            · apply List.mem_append_right
              have hhdr := (List.mem_filter.mp hnew).1
              simpa [acceptedHdrs, requestPackets, SysAct.packet] using hhdr
          · intro evt hevt
            exact ⟨(h.events evt hevt).1, (h.events evt hevt).2.later _⟩
          · have hold := h.answers
            rw [hpending, Option.toList_none, List.append_nil] at hold
            rw [requestPackets_append]
            exact List.rel_append hold (List.Forall₂.cons hanswers List.Forall₂.nil)
          · intro rsp hrsp
            rcases List.mem_append.mp hrsp with hold | hnew
            · exact h.short rsp (List.mem_append_left _ hold)
            · obtain rfl := List.mem_singleton.mp hnew
              exact hshort

theorem callback_explained (lib : Externs) (acts : List SysAct) (t next : Service)
    (h : Explained lib acts t) (i : Nat) (host : CbHost) (input : CbInput)
    (hstep : Service.step lib t (.callback i host input) = some next) :
    Explained lib acts next := by
  cases hreq : t.procs[i]? with
  | none => simp [Service.step, hreq] at hstep
  | some req =>
      cases hreport : Service.report host req input t.world.tables.nextSeq with
      | none => simp [Service.step, hreq, hreport] at hstep
      | some outcome =>
          simp only [Service.step, hreq, hreport, Option.bind_eq_bind, Option.bind_some] at hstep
          obtain rfl := Option.some.inj hstep
          have haccepted := h.procs req (List.mem_of_getElem? hreq)
          have hprocs : ∀ other ∈ (if input.last then t.procs.eraseIdx i else t.procs),
              other ∈ t.procs := by
            intro other hother
            split_ifs at hother
            · exact List.mem_of_mem_eraseIdx hother
            · exact hother
          obtain ⟨n, hn⟩ := h.numbers.nextSeq
          cases report_reported host req input _ outcome hreport with
          | solicited hnext hevt =>
              have hnumbers : EventNumbers (t.world.withNextSeq outcome.nextSeq).tables := by
                rw [hnext]
                exact h.numbers
              refine (h.withState _ _ hnumbers hprocs).send _ ?_
              intro evt he
              exact ⟨(hevt evt he).1, Or.inl ⟨req, haccepted, (hevt evt he).2⟩⟩
          | drawn evt hevt hsound htype hseq hnext =>
              have hnumbers : EventNumbers (t.world.withNextSeq outcome.nextSeq).tables := by
                rw [hnext]
                exact h.numbers.withNextSeq
              refine (h.withState _ _ hnumbers hprocs).send _ ?_
              intro other hother
              obtain rfl := Option.some.inj (hevt.symm.trans hother)
              exact ⟨hsound, Or.inr (evtSeq_drawn n evt htype (hseq.trans hn))⟩

-- The events with the next number of bhd_next_evt_seq.
theorem draw_explained (lib : Externs) (acts : List SysAct) (t : Service)
    (h : Explained lib acts t) (evt : Evt) (hsound : evt.Sound)
    (htype : evt.hdr.type ∈ drawnTypes)
    (hseq : evt.hdr.seq = (nextEvtSeq t.world.tables.nextSeq).1) :
    Explained lib acts (Service.send
      { t with world := t.world.withNextSeq (nextEvtSeq t.world.tables.nextSeq).2 } (some evt)) := by
  obtain ⟨n, hn⟩ := h.numbers.nextSeq
  refine (h.withState _ t.procs h.numbers.withNextSeq fun _ hreq => hreq).send _ ?_
  intro other hother
  obtain rfl := Option.some.inj hother
  exact ⟨hsound, Or.inr (evtSeq_drawn n evt htype (hseq.trans hn))⟩

theorem access_explained (lib : Externs) (acts : List SysAct) (t next : Service)
    (h : Explained lib acts t) (attr : Gatts.Attr) (host : CbHost) (accessOp : UInt8)
    (connHandle attrHandle : UInt16) (om : Mbuf)
    (hstep : Service.step lib t (.access attr host accessOp connHandle attrHandle om) = some next) :
    Explained lib acts next := by
  cases harg : t.world.tables.attrArg attr with
  | none => simp [Service.step, harg] at hstep
  | some seq =>
      simp only [Service.step, harg, Option.bind_eq_bind, Option.bind_some] at hstep
      obtain rfl := Option.some.inj hstep
      refine h.send _ ?_
      intro evt hevt
      obtain ⟨hsound, hhdr⟩ := gattsAccess_sound _ _ _ _ _ _ evt hevt
      obtain ⟨n, hn⟩ := h.numbers.args attr seq harg
      exact ⟨hsound, Or.inr (evtSeq_drawn n evt (by rw [hhdr]; simp [drawnTypes])
        (by rw [hhdr]; exact hn))⟩

-- One case for each action.
theorem step_explained (lib : Externs) (acts : List SysAct) (t : Service) (act : SysAct)
    (next : Service) (h : Explained lib acts t) (hstep : Service.step lib t act = some next) :
    Explained lib (acts ++ [act]) next := by
  cases act with
  | request packet junk host block =>
      exact request_explained lib acts t next h packet junk host block hstep
  | respond =>
      cases hpending : t.pending with
      | none => simp [Service.step, hpending] at hstep
      | some rsp =>
          simp only [Service.step, hpending, Option.bind_eq_bind, Option.bind_some] at hstep
          obtain rfl := Option.some.inj hstep
          have hlater := h.later .respond rfl
          refine ⟨hlater.numbers, hlater.procs, ?_, ?_, ?_⟩
          · intro evt hevt
            rcases List.mem_append.mp hevt with hold | hnew
            · exact hlater.events evt hold
            · cases List.mem_singleton.mp hnew
          · have hold := hlater.answers
            rw [hpending] at hold
            simpa [responses, Message.response] using hold
          · have hold := hlater.short
            rw [hpending] at hold
            simpa [responses, Message.response] using hold
  | callback i host input =>
      exact (callback_explained lib acts t next h i host input hstep).later _ rfl
  | sync synced =>
      cases hstep
      have hsound : (sendSyncEvt synced (nextEvtSeq t.world.tables.nextSeq).1).Sound :=
        ⟨rfl, rfl, trivial⟩
      exact (draw_explained lib acts t h _ hsound (by simp [sendSyncEvt, drawnTypes]) rfl).later _
        rfl
  | reset reason =>
      cases hstep
      have hsound : (sendResetEvt (nextEvtSeq t.world.tables.nextSeq).1 reason).Sound :=
        ⟨rfl, rfl, trivial⟩
      exact (draw_explained lib acts t h _ hsound (by simp [sendResetEvt, drawnTypes]) rfl).later _
        rfl
  | access attr host accessOp connHandle attrHandle om =>
      exact (access_explained lib acts t next h attr host accessOp connHandle attrHandle om
        hstep).later _ rfl
  | accessWake =>
      cases hwake : t.world.accessWake with
      | none => simp [Service.step, hwake] at hstep
      | some world =>
          simp only [Service.step, hwake, Option.bind_eq_bind, Option.bind_some] at hstep
          obtain rfl := Option.some.inj hstep
          have htables : world.tables = t.world.tables := by
            unfold World.accessWake at hwake
            split_ifs at hwake
            cases hwake
            rfl
          exact (h.withState world t.procs (by rw [htables]; exact h.numbers)
            fun _ hreq => hreq).later _ rfl
  | accessReset =>
      cases hstep
      exact (h.withState t.world.accessReset t.procs h.numbers fun _ hreq => hreq).later _ rfl

theorem explained_initial (lib : Externs) : Explained lib [] Service.initial where
  numbers := eventNumbers_initial
  procs _ hreq := absurd hreq List.not_mem_nil
  events _ hevt := absurd hevt List.not_mem_nil
  answers := List.Forall₂.nil
  short _ hrsp := absurd hrsp List.not_mem_nil

theorem run_explained (lib : Externs) (acts : List SysAct) (t : Service)
    (hrun : Transition.run (Service.step lib) Service.initial acts = some t) :
    Explained lib acts t := by
  have hmeets : Transition.Meets (Service.step lib) (fun _ _ => True) Service.initial acts :=
    Transition.meets_of_forall (fun _ _ => trivial) _ acts
  exact Transition.run_history (explained_initial lib)
    (fun past t act next h _ hstep => step_explained lib past t act next h hstep) hmeets hrun

-- Every response but a listing of services comes onto the queue.
theorem Explained.queued {lib : Externs} {acts : List SysAct} {t : Service}
    (h : Explained lib acts t) (hlib : lib.Prints) (rsp : Rsp) (hsent : Message.rsp rsp ∈ t.sent)
    (htype : rsp.hdr.type ≠ .commitSvcs) : ∃ frame, Message.frames lib (.rsp rsp) = [frame] := by
  have hmem : rsp ∈ responses t.sent ++ t.pending.toList :=
    List.mem_append_left _ (List.mem_filterMap.mpr ⟨_, hsent, rfl⟩)
  obtain ⟨hmodest, henc⟩ := h.short rsp hmem htype
  obtain ⟨root, hroot⟩ := rspEnc_total lib.uuidToStr rsp henc hmodest.svcs
  have hsize := rspEnc_short lib.uuidToStr rsp hmodest root hroot
  rw [← hlib.print] at hsize
  have hmax : BLEHOSTD_MAX_MSG_SZ = 10240 := rfl
  have hlong : ¬BLEHOSTD_MAX_MSG_SZ < (lib.print root).length := by omega
  refine ⟨rspFrame (lib.print root), ?_⟩
  simp [Message.frames, Message.root, hroot, enqueueRsp, hlong]

end Blehostd
