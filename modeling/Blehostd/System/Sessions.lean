import Blehostd.System.Attribution

namespace Blehostd

-- The event that tells the client that a procedure is over.
def EvtBody.Ends : EvtBody → Prop
  | .discSvc report => report.status ≠ 0
  | .discChr report => report.status ≠ 0
  | .discDsc report => report.status ≠ 0
  | .writeAck _ => True
  | .mtuChange _ => True
  | _ => False

def eventsOf (seq : UInt32) (sent : List Message) : List Evt :=
  (sent.filterMap Message.event).filter fun evt => evt.hdr.seq = seq

-- What the client gets for a request that starts a procedure, while the daemon keeps the
-- procedure and afterwards.
inductive Session (status : Int) (kept : Prop) (events : List Evt) : Prop where
  | refused (hstatus : status ≠ 0) (hgone : ¬kept) (hnone : events = [])
  | running (hstatus : status = 0) (hkept : kept) (hopen : ∀ evt ∈ events, ¬evt.body.Ends)
  | over (reports : List Evt) (last : Evt) (hstatus : status = 0) (hgone : ¬kept)
      (hevents : events = reports ++ [last]) (hopen : ∀ evt ∈ reports, ¬evt.body.Ends)
      (hends : last.body.Ends)

-- A procedure of the GATT client, which the host ends by itself.
def MsgType.Gattc (type : MsgType) : Prop :=
  ∃ kind, type.kind = some kind ∧ kind ≠ .gap

structure Sessions (lib : Externs) (acts : List SysAct) (t : Service) : Prop where
  once : t.procs.Nodup
  sessions : ∀ packet rsp req,
    (packet, rsp) ∈ (requestPackets acts).zip (responses t.sent ++ t.pending.toList) →
    headerOfPacket lib packet = some req → req.type.Gattc →
    Session rsp.status (req ∈ t.procs) (eventsOf req.seq t.sent)

theorem eventsOf_append (seq : UInt32) (sent later : List Message) :
    eventsOf seq (sent ++ later) = eventsOf seq sent ++ eventsOf seq later := by
  simp [eventsOf]

theorem eventsOf_other (seq : UInt32) (evt : Option Evt)
    (h : ∀ e, evt = some e → e.hdr.seq ≠ seq) :
    eventsOf seq (evt.toList.map Message.evt) = [] := by
  cases evt with
  | none => rfl
  | some e => simp [eventsOf, Message.event, h e rfl]

theorem ClientNumbers.past {lib : Externs} {past : List SysAct} {act : SysAct}
    (h : ClientNumbers lib (past ++ [act])) : ClientNumbers lib past := by
  obtain ⟨hlow, hdistinct⟩ := h
  rw [acceptedHdrs_append] at hlow hdistinct
  rw [List.map_append] at hdistinct
  exact ⟨fun req hreq => hlow req (List.mem_append_left _ hreq), hdistinct.of_append_left⟩

theorem accepted_of_packet {lib : Externs} {acts : List SysAct} {packet : Mbuf} {req : MsgHdr}
    (hpacket : packet ∈ requestPackets acts) (hreq : headerOfPacket lib packet = some req) :
    req ∈ acceptedHdrs lib acts :=
  List.mem_filterMap.mpr ⟨packet, hpacket, hreq⟩

-- A step that makes no response and does not touch the procedures of the GATT client.
theorem Sessions.keep {lib : Externs} {acts : List SysAct} {t : Service} (h : Sessions lib acts t)
    (next : Service) (honce : next.procs.Nodup)
    (hanswers : responses next.sent ++ next.pending.toList =
      responses t.sent ++ t.pending.toList)
    (hsame : ∀ req ∈ acceptedHdrs lib acts, req.type.Gattc →
      (req ∈ next.procs ↔ req ∈ t.procs) ∧ eventsOf req.seq next.sent = eventsOf req.seq t.sent) :
    Sessions lib acts next := by
  refine ⟨honce, ?_⟩
  intro packet rsp req hpair hreq hgattc
  rw [hanswers] at hpair
  have haccepted := accepted_of_packet (List.of_mem_zip hpair).1 hreq
  obtain ⟨hprocs, hevents⟩ := hsame req haccepted hgattc
  rw [hevents, propext hprocs]
  exact h.sessions packet rsp req hpair hreq hgattc

theorem Sessions.later {lib : Externs} {acts : List SysAct} {t : Service} (h : Sessions lib acts t)
    (act : SysAct) (hact : act.packet = none) : Sessions lib (acts ++ [act]) t := by
  have hnone : requestPackets [act] = [] := by simp [requestPackets, hact]
  refine ⟨h.once, ?_⟩
  rw [requestPackets_append, hnone, List.append_nil]
  exact h.sessions

-- An event of something else, and a step that forgets no procedure but other ones.
theorem Sessions.send {lib : Externs} {acts : List SysAct} {t : Service} (h : Sessions lib acts t)
    (world : World) (evt : Option Evt)
    (hevt : ∀ e, evt = some e → ∀ req ∈ acceptedHdrs lib acts, e.hdr.seq ≠ req.seq) :
    Sessions lib acts (Service.send { t with world := world } evt) := by
  refine h.keep _ h.once ?_ ?_
  · cases evt <;> simp [Service.send, responses, Message.response]
  · intro req hreq _
    refine ⟨Iff.rfl, ?_⟩
    have hother := eventsOf_other req.seq evt fun e he => hevt e he req hreq
    simp [Service.send, eventsOf_append, hother]

-- A report goes to the session of its request, and the last one ends it.
theorem Session.report {status : Int} {kept next : Prop} {events : List Evt} {evt : Evt}
    (h : Session status kept events) (hkept : kept) (last : Prop) (hends : evt.body.Ends ↔ last)
    (hnext : next ↔ ¬last) : Session status next (events ++ [evt]) := by
  obtain ⟨-, hgone, -⟩ | ⟨hstatus, -, hopen⟩ | ⟨-, -, -, hgone, -, -, -⟩ := h
  · exact absurd hkept hgone
  · by_cases hlast : last
    · exact .over events evt hstatus (fun h => hnext.mp h hlast) rfl hopen (hends.mpr hlast)
    · refine .running hstatus (hnext.mpr hlast) ?_
      intro other hother
      rcases List.mem_append.mp hother with hold | hnew
      · exact hopen other hold
      · obtain rfl := List.mem_singleton.mp hnew
        exact fun h => hlast (hends.mp h)
  · exact absurd hkept hgone

-- The steps that have nothing to do with a procedure.
theorem Sessions.withWorld {lib : Externs} {acts : List SysAct} {t : Service}
    (h : Sessions lib acts t) (world : World) : Sessions lib acts { t with world := world } :=
  h.keep _ h.once rfl fun _ _ _ => ⟨Iff.rfl, rfl⟩

end Blehostd
