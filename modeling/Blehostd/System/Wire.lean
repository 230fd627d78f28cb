import Blehostd.Events.Reading
import Blehostd.Stream.Theorems
import Blehostd.System.Attribution

namespace Blehostd

def Message.hdr : Message → MsgHdr
  | .rsp r => r.hdr
  | .evt e => e.hdr

theorem jsonKv_found {α : Type} (map : List (String × α)) (root : Json) (name valstr : String)
    (val : α) (hitem : root.getObjectItem name = some (.string (ascii valstr)))
    (hfind : kvFind map (ascii valstr) = some val) : jsonKv map root name = .ok val := by
  simp [jsonKv, jsonString, member, hitem, processJsonString, bind, Except.bind, hfind]

theorem header_item (hdr : MsgHdr) (members : Members) :
    (Json.object (msgHdrEnc hdr ++ members)).getObjectItem "op" =
      some (.string (ascii ((kvRevFind opMap hdr.op).getD ""))) ∧
    (Json.object (msgHdrEnc hdr ++ members)).getObjectItem "type" =
      some (.string (ascii ((kvRevFind typeMap hdr.type).getD ""))) ∧
    (Json.object (msgHdrEnc hdr ++ members)).getObjectItem "seq" =
      some (.number hdr.seq.toNat) :=
  ⟨rfl, rfl, rfl⟩

-- A header is read back, whatever follows it.
theorem msgHdrDec_enc (hdr : MsgHdr) (members : Members) (hseq : hdr.seq ≤ BHD_SEQ_MAX) :
    msgHdrDec (.object (msgHdrEnc hdr ++ members)) = .ok hdr := by
  obtain ⟨hop, htype, hnumber⟩ := header_item hdr members
  have hopDec := jsonKv_found opMap _ _ _ _ hop (opMap_find hdr.op)
  have htypeDec := jsonKv_found typeMap _ _ _ _ htype (typeMap_find hdr.type)
  have hmax : ((hdr.seq.toNat : Nat) : Int) ≤ BHD_SEQ_MAX.toNat := by
    have hle := UInt32.le_iff_toNat_le.mp hseq
    omega
  have hseqDec := jsonInt_number _ "seq" _ 0 BHD_SEQ_MAX.toNat hnumber (by omega) hmax
  have hvalue : UInt32.ofInt (hdr.seq.toNat : Int) = hdr.seq := by
    rw [← UInt32.toNat_inj]
    have hofInt := toNat_ofInt_seq (hdr.seq.toNat : Int) (by omega) hmax
    omega
  simp only [msgHdrDec, hopDec, htypeDec, hseqDec, Except.mapError, bind, Except.bind, hvalue]

theorem Message.root_header (uuidToStr : Uuid → Text) (m : Message) (root : Json)
    (h : m.root uuidToStr = .ok root) :
    ∃ members, root = .object (msgHdrEnc m.hdr ++ members) := by
  cases m with
  | rsp r =>
      obtain ⟨_, members, _, _, rfl⟩ := (rspEnc_ok uuidToStr r root).mp h
      exact ⟨members, rfl⟩
  | evt e =>
      obtain ⟨members, _, hroot⟩ := (bind_ok _ _ _).mp h
      exact ⟨members, (Except.ok.inj hroot).symm⟩

-- A message on the queue, with the object that its text is of.
structure Packet (lib : Externs) (sent : List Message) where
  hdr : MsgHdr
  root : Json
  header : msgHdrDec root = .ok hdr
  made : ∃ m ∈ sent, m.hdr = hdr ∧ m.root lib.uuidToStr = .ok root
  fits : Fits (lib.print root)

theorem Packet.of_message (lib : Externs) (hlib : lib.Prints) (sent : List Message) (m : Message)
    (hm : m ∈ sent) (hseq : m.hdr.seq ≤ BHD_SEQ_MAX) :
    ∃ packets : List (Packet lib sent),
      Message.frames lib m = packets.map fun p => rspFrame (lib.print p.root) := by
  cases hroot : m.root lib.uuidToStr with
  | error fault => exact ⟨[], by simp [Message.frames, hroot]⟩
  | ok root =>
      by_cases hlong : BLEHOSTD_MAX_MSG_SZ < (lib.print root).length
      · exact ⟨[], by simp [Message.frames, hroot, enqueueRsp, hlong]⟩
      · obtain ⟨members, rfl⟩ := Message.root_header lib.uuidToStr m root hroot
        have hpos : 1 ≤ (lib.print (.object (msgHdrEnc m.hdr ++ members))).length := by
          rw [hlib.print, Json.layout_object_length _ _ (by simp [msgHdrEnc, addInt])]
          omega
        refine ⟨[⟨m.hdr, _, msgHdrDec_enc m.hdr members hseq, ⟨m, hm, rfl, hroot⟩, hpos,
          by omega⟩], ?_⟩
        simp [Message.frames, hroot, enqueueRsp, hlong]

theorem packets_of_sent (lib : Externs) (hlib : lib.Prints) (sent : List Message)
    (messages : List Message) (hsub : ∀ m ∈ messages, m ∈ sent)
    (hseq : ∀ m ∈ messages, m.hdr.seq ≤ BHD_SEQ_MAX) :
    ∃ packets : List (Packet lib sent),
      messages.flatMap (Message.frames lib) = packets.map fun p => rspFrame (lib.print p.root) := by
  induction messages with
  | nil => exact ⟨[], rfl⟩
  | cons m rest ih =>
      obtain ⟨first, hfirst⟩ := Packet.of_message lib hlib sent m (hsub m List.mem_cons_self)
        (hseq m List.mem_cons_self)
      obtain ⟨later, hlater⟩ := ih (fun a ha => hsub a (List.mem_cons_of_mem _ ha))
        (fun a ha => hseq a (List.mem_cons_of_mem _ ha))
      refine ⟨first ++ later, ?_⟩
      rw [List.flatMap_cons, hfirst, hlater, List.map_append]

theorem headerOfPacket_le (lib : Externs) (packet : Mbuf) (hdr : MsgHdr)
    (h : headerOfPacket lib packet = some hdr) : hdr.seq ≤ BHD_SEQ_MAX := by
  obtain ⟨root, _, hdec⟩ := Option.bind_eq_some_iff.mp h
  cases hhdr : msgHdrDec root with
  | error e => simp [hhdr, Except.toOption] at hdec
  | ok other =>
      rw [hhdr] at hdec
      obtain rfl : other = hdr := Option.some.inj hdec
      exact msgHdrDec_seq_le root other hhdr

theorem AnswersPacket.seq_le {lib : Externs} {packet : Mbuf} {rsp : Rsp}
    (h : AnswersPacket lib packet rsp) : rsp.hdr.seq ≤ BHD_SEQ_MAX := by
  rw [h.seq]
  cases hhdr : headerOfPacket lib packet with
  | none => exact UInt32.le_iff_toNat_le.mpr (Nat.zero_le _)
  | some hdr => exact headerOfPacket_le lib packet hdr hhdr

theorem Evt.Caused.seq_le {lib : Externs} {acts : List SysAct} {evt : Evt}
    (h : evt.Caused lib acts) : evt.hdr.seq ≤ BHD_SEQ_MAX := by
  rcases h with ⟨req, hmem, hsolicited⟩ | hdrawn
  · obtain ⟨packet, _, hhdr⟩ := List.mem_filterMap.mp hmem
    rw [hsolicited.seq]
    exact headerOfPacket_le lib packet req hhdr
  · exact hdrawn.upper

theorem Explained.response {lib : Externs} {acts : List SysAct} {t : Service}
    (h : Explained lib acts t) (r : Rsp) (hr : Message.rsp r ∈ t.sent) :
    ∃ packet, AnswersPacket lib packet r := by
  have hmem : r ∈ responses t.sent ++ t.pending.toList := by
    apply List.mem_append_left
    exact List.mem_filterMap.mpr ⟨_, hr, rfl⟩
  obtain ⟨i, hi, hget⟩ := List.getElem_of_mem hmem
  have hanswer := List.Forall₂.get h.answers (by rw [h.answers.length_eq]; exact hi) hi
  simp only [List.get_eq_getElem, hget] at hanswer
  exact ⟨_, hanswer⟩

theorem Explained.message {lib : Externs} {acts : List SysAct} {t : Service}
    (h : Explained lib acts t) (m : Message) (hm : m ∈ t.sent) :
    m.hdr.seq ≤ BHD_SEQ_MAX ∧ m.hdr.op ≠ .req := by
  cases m with
  | rsp r =>
      obtain ⟨packet, hanswer⟩ := h.response r hm
      exact ⟨hanswer.seq_le, by rw [Message.hdr, hanswer.op]; nofun⟩
  | evt e =>
      obtain ⟨hsound, hcaused⟩ := h.events e hm
      exact ⟨hcaused.seq_le, by rw [Message.hdr, hsound.op]; nofun⟩

-- Everything on the queue is a frame around the text of a message that the service has sent.
-- The decoder of headers reads back the header that was encoded, and a reader that cuts its
-- input as the daemon does gets these texts, in order.
theorem outgoing_read_back (lib : Externs) (hlib : lib.Prints) (acts : List SysAct) (s : System)
    (hrun : Transition.run (System.step lib) System.initial acts = some s) :
    ∃ t, Transition.run (Service.step lib) Service.initial acts = some t ∧
    ∃ packets : List (MsgHdr × Json),
      s.put = packets.map (fun p => rspFrame (lib.print p.2)) ∧
      (∀ p ∈ packets, (∃ m ∈ t.sent, m.hdr = p.1 ∧ m.root lib.uuidToStr = .ok p.2) ∧
        (∃ members, p.2 = .object (msgHdrEnc p.1 ++ members)) ∧
        msgHdrDec p.2 = .ok p.1 ∧ p.1.op ≠ .req) ∧
      ∀ chunks : List Mbuf, chunks.flatten = s.put.flatten →
        ¬SplitsLength (packets.map fun p => lib.print p.2) chunks →
        Delivered (packets.map fun p => lib.print p.2) chunks := by
  obtain ⟨t, ht, hR⟩ := run_refines lib hlib acts s hrun
  have hexplained := run_explained lib acts t ht
  obtain ⟨packets, hpackets⟩ := packets_of_sent lib hlib t.sent t.sent (fun _ hm => hm)
    fun m hm => (hexplained.message m hm).1
  have htexts : (packets.map fun p => (p.hdr, p.root)).map (fun p => lib.print p.2) =
      packets.map fun p => lib.print p.root := by
    rw [List.map_map]
    rfl
  have hput : s.put = packets.map fun p => rspFrame (lib.print p.root) := hR.put.trans hpackets
  refine ⟨t, ht, packets.map fun p => (p.hdr, p.root), ?_, ?_, ?_⟩
  · rw [hput, List.map_map]
    rfl
  · intro pair hpair
    obtain ⟨p, _, rfl⟩ := List.mem_map.mp hpair
    obtain ⟨m, hm, hhdr, hroot⟩ := p.made
    have hmembers := Message.root_header lib.uuidToStr m p.root hroot
    rw [hhdr] at hmembers
    exact ⟨⟨m, hm, hhdr, hroot⟩, hmembers, p.header, hhdr ▸ (hexplained.message m hm).2⟩
  · intro chunks hchunks hsplit
    rw [htexts] at hsplit ⊢
    have hfit : ∀ text ∈ packets.map (fun p => lib.print p.root), Fits text := by
      intro text htext
      obtain ⟨p, _, rfl⟩ := List.mem_map.mp htext
      exact p.fits
    have hstream : chunks.flatten =
        Framing.stream lengthHeader (packets.map fun p => lib.print p.root) := by
      rw [hchunks, hput, Framing.stream, List.map_map]
      rfl
    rcases receive_initial _ chunks hfit hstream with ⟨hdelivered, -⟩ | ⟨hsplits, -⟩
    · exact hdelivered
    · exact absurd hsplits hsplit

theorem discChrs_read_back : ∃ s,
    Transition.run (System.step discChrsExterns) System.initial discChrsActs = some s ∧
    ∃ packets : List (MsgHdr × Json),
      s.put = packets.map (fun p => rspFrame (discChrsExterns.print p.2)) ∧
      ∀ p ∈ packets, msgHdrDec p.2 = .ok p.1 := by
  obtain ⟨s, hs⟩ := discChrs_run
  obtain ⟨t, -, packets, hput, hheaders, -⟩ :=
    outgoing_read_back discChrsExterns discChrs_prints discChrsActs s hs
  exact ⟨s, hs, packets, hput, fun p hp => (hheaders p hp).2.2.1⟩

end Blehostd
