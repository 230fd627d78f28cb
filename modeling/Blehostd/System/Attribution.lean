import Blehostd.System.History
import Blehostd.System.Theorems

namespace Blehostd

-- A client that tells its requests apart by numbers below those of bhd_next_evt_seq.
structure ClientNumbers (lib : Externs) (acts : List SysAct) : Prop where
  low : ∀ req ∈ acceptedHdrs lib acts, req.seq < BHD_SEQ_EVT_MIN
  distinct : ((acceptedHdrs lib acts).map MsgHdr.seq).Nodup

-- The client finds the request of an event by its number, or sees that there is none.
structure Evt.Routed (lib : Externs) (acts : List SysAct) (evt : Evt) : Prop where
  low : evt.hdr.seq < BHD_SEQ_EVT_MIN → ∃ req ∈ acceptedHdrs lib acts, evt.Solicited req ∧
    ∀ other ∈ acceptedHdrs lib acts, other.seq = evt.hdr.seq → other = req
  high : BHD_SEQ_EVT_MIN ≤ evt.hdr.seq → evt.Drawn

theorem Evt.Caused.routed {lib : Externs} {acts : List SysAct} {evt : Evt}
    (h : evt.Caused lib acts) (hclient : ClientNumbers lib acts) : evt.Routed lib acts := by
  rcases h with ⟨req, hmem, hsolicited⟩ | hdrawn
  · have hlow : evt.hdr.seq < BHD_SEQ_EVT_MIN := by
      rw [hsolicited.seq]
      exact hclient.low req hmem
    refine ⟨?_, fun hhigh => absurd hlow (UInt32.not_lt.mpr hhigh)⟩
    intro _
    refine ⟨req, hmem, hsolicited, ?_⟩
    intro other hother hseq
    exact List.inj_on_of_nodup_map hclient.distinct hother hmem (hseq.trans hsolicited.seq)
  · exact ⟨fun hlow => absurd hlow (UInt32.not_lt.mpr hdrawn.lower), fun _ => hdrawn⟩

-- No event is dropped, and each is one that some request has asked for, with its number,
-- or one with a number of bhd_next_evt_seq.
theorem events_attributed (lib : Externs) (hlib : lib.Prints) (acts : List SysAct) (s : System)
    (hrun : Transition.run (System.step lib) System.initial acts = some s) :
    ∃ t, Transition.run (Service.step lib) Service.initial acts = some t ∧
      s.put = t.sent.flatMap (Message.frames lib) ∧
      ∀ evt, Message.evt evt ∈ t.sent →
        (∃ frame, Message.frames lib (.evt evt) = [frame]) ∧ evt.Caused lib acts ∧
        (ClientNumbers lib acts → evt.Routed lib acts) := by
  obtain ⟨t, ht, hR⟩ := run_refines lib hlib acts s hrun
  have hexplained := run_explained lib acts t ht
  refine ⟨t, ht, hR.put, ?_⟩
  intro evt hevt
  obtain ⟨hsound, hcaused⟩ := hexplained.events evt hevt
  obtain ⟨frame, -, hframes⟩ := evtSend_sound lib hlib evt hsound []
  exact ⟨⟨frame, hframes⟩, hcaused, hcaused.routed⟩

theorem discChrs_attributed : ∃ s t,
    Transition.run (System.step discChrsExterns) System.initial discChrsActs = some s ∧
    Transition.run (Service.step discChrsExterns) Service.initial discChrsActs = some t ∧
    t.sent.length = 2 ∧
    ∀ evt, Message.evt evt ∈ t.sent → evt.Caused discChrsExterns discChrsActs := by
  obtain ⟨s, hs⟩ := discChrs_run
  obtain ⟨t, ht, -, hevents⟩ :=
    events_attributed discChrsExterns discChrs_prints discChrsActs s hs
  obtain ⟨u, hu, hlength, -⟩ := discChrs_service
  obtain rfl : t = u := Option.some.inj (ht.symm.trans hu)
  exact ⟨s, t, hs, ht, hlength, fun evt hevt => (hevents evt hevt).2.1⟩

-- The responses are made one for each request, in the order of the requests. Each of them but
-- a listing of services comes onto the queue, as one message.
theorem responses_in_order (lib : Externs) (hlib : lib.Prints) (acts : List SysAct) (s : System)
    (hrun : Transition.run (System.step lib) System.initial acts = some s) :
    ∃ t, Transition.run (Service.step lib) Service.initial acts = some t ∧
      s.put = t.sent.flatMap (Message.frames lib) ∧
      List.Forall₂ (AnswersPacket lib) (requestPackets acts)
        (responses t.sent ++ s.pending.toList) ∧
      ∀ rsp, Message.rsp rsp ∈ t.sent → rsp.hdr.type ≠ .commitSvcs →
        ∃ frame, Message.frames lib (.rsp rsp) = [frame] := by
  obtain ⟨t, ht, hR⟩ := run_refines lib hlib acts s hrun
  have hexplained := run_explained lib acts t ht
  refine ⟨t, ht, hR.put, ?_, hexplained.queued hlib⟩
  rw [hR.pending]
  exact hexplained.answers

theorem discChrs_in_order : ∃ s t,
    Transition.run (System.step discChrsExterns) System.initial discChrsActs = some s ∧
    Transition.run (Service.step discChrsExterns) Service.initial discChrsActs = some t ∧
    (responses t.sent ++ s.pending.toList).length = 1 := by
  obtain ⟨s, hs⟩ := discChrs_run
  obtain ⟨t, ht, -, hanswers, -⟩ :=
    responses_in_order discChrsExterns discChrs_prints discChrsActs s hs
  exact ⟨s, t, hs, ht, hanswers.length_eq.symm⟩

end Blehostd
