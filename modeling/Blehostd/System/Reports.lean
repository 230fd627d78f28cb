import Blehostd.Events.Size
import Blehostd.Service

namespace Blehostd

-- An event that has an encoder and room in a message.
structure Evt.Sound (evt : Evt) : Prop where
  op : evt.hdr.op = .evt
  type : evt.hdr.type = evt.body.type
  fits : evt.body.Fits

-- The events that the procedures of each kind report.
def ProcKind.events : ProcKind → List MsgType
  | .gap => [.connectEvt, .disconnectEvt, .mtuChangeEvt, .scanEvt, .scanTmoEvt, .advCompleteEvt,
      .encChangeEvt, .passkeyEvt]
  | .discSvc => [.discSvcEvt]
  | .discChr => [.discChrEvt]
  | .discDsc => [.discDscEvt]
  | .write => [.writeAckEvt]
  | .mtu => [.mtuChangeEvt]

-- The events whose number comes from bhd_next_evt_seq.
def drawnTypes : List MsgType :=
  [.syncEvt, .resetEvt, .notifyRxEvt, .accessEvt]

-- An event of a procedure carries the number of its request.
structure Evt.Solicited (evt : Evt) (req : MsgHdr) : Prop where
  seq : evt.hdr.seq = req.seq
  kind : ∃ kind, req.type.kind = some kind ∧ evt.hdr.type ∈ kind.events

-- What one report leaves: an event of the procedure, or a notification with the next
-- number of bhd_next_evt_seq.
inductive Reported (req : MsgHdr) (nextSeq : UInt32) (outcome : CbOutcome) : Prop where
  | solicited (hnext : outcome.nextSeq = nextSeq)
      (hevt : ∀ evt, outcome.evt = some evt → evt.Sound ∧ evt.Solicited req)
  | drawn (evt : Evt) (hevt : outcome.evt = some evt) (hsound : evt.Sound)
      (htype : evt.hdr.type ∈ drawnTypes) (hseq : evt.hdr.seq = nextSeq)
      (hnext : outcome.nextSeq = (nextEvtSeq nextSeq).2)

theorem counted_length_le {α : Type} {n : Nat} (c : Counted α n) : c.list.length ≤ n := by
  rw [Counted.list, List.length_take, Vector.length_toList]
  exact Nat.min_le_right _ _

-- The members of the event are arrays.
theorem scanEvt_within (desc : GapDiscDesc) (m : AdvMembers)
    (hdata : desc.data.length ≤ BLE_HS_ADV_MAX_SZ) :
    ScanEvt.Within ⟨desc.eventType, desc.addr, desc.rssi, desc.data, desc.directAddr, m.req⟩ where
  data := hdata
  uuids16 := counted_length_le m.uuids16
  uuids32 := counted_length_le m.uuids32
  uuids128 := counted_length_le m.uuids128
  name := counted_length_le m.name
  svcDataUuid16 := counted_length_le m.svcDataUuid16
  publicTgtAddrs := counted_length_le m.publicTgtAddrs
  svcDataUuid32 := counted_length_le m.svcDataUuid32
  svcDataUuid128 := counted_length_le m.svcDataUuid128
  uri := counted_length_le m.uri
  mfgData := counted_length_le m.mfgData

theorem gapSendScanEvt_sound (parseFields : List UInt8 → Option HsFields) (desc : GapDiscDesc)
    (seq : UInt32) (evt : Evt) (h : gapSendScanEvt parseFields desc seq = .ok evt) :
    evt.Sound ∧ evt.hdr = ⟨.evt, .scanEvt, seq⟩ := by
  unfold gapSendScanEvt at h
  dsimp only at h
  by_cases hlong : BLE_HS_ADV_MAX_SZ < desc.data.length
  · rw [if_pos hlong] at h
    cases h
  · rw [if_neg hlong] at h
    have hdata : desc.data.length ≤ BLE_HS_ADV_MAX_SZ := by omega
    cases hparse : parseFields desc.data with
    | none =>
        simp only [hparse] at h
        cases h
        exact ⟨⟨rfl, rfl, scanEvt_within desc _ hdata⟩, rfl⟩
    | some fields =>
        simp only [hparse] at h
        cases hsend : sendScanFields fields AdvMembers.zero with
        | none =>
            simp only [hsend] at h
            cases h
        | some members =>
            simp only [hsend] at h
            cases h
            exact ⟨⟨rfl, rfl, scanEvt_within desc _ hdata⟩, rfl⟩

theorem Reported.of_some {req : MsgHdr} {nextSeq : UInt32} {ret : Int} {evt : Evt}
    {peer : Option BleAddr} (hsound : evt.Sound) (hsolicited : evt.Solicited req) :
    Reported req nextSeq ⟨ret, some evt, nextSeq, peer⟩ := by
  refine .solicited rfl ?_
  intro other hother
  obtain rfl := Option.some.inj hother
  exact ⟨hsound, hsolicited⟩

theorem Reported.of_none {req : MsgHdr} {nextSeq : UInt32} {ret : Int} {peer : Option BleAddr} :
    Reported req nextSeq ⟨ret, none, nextSeq, peer⟩ := by
  refine .solicited rfl ?_
  intro evt hevt
  cases hevt

-- One case for each event of bhd_gap_event.
theorem gapEvent_reported (host : CbHost) (event : GapEvent) (req : MsgHdr) (nextSeq : UInt32)
    (outcome : CbOutcome) (hkind : req.type.kind = some .gap)
    (h : gapEvent host event req.seq nextSeq = .ok outcome) : Reported req nextSeq outcome := by
  have hmember (type : MsgType) (htype : type ∈ ProcKind.gap.events) (body : EvtBody) :
      Evt.Solicited ⟨⟨.evt, type, req.seq⟩, body⟩ req := ⟨rfl, .gap, hkind, htype⟩
  cases event with
  | disc desc =>
      obtain ⟨evt, hevt, houtcome⟩ := (bind_ok _ _ _).mp h
      cases houtcome
      obtain ⟨hsound, hhdr⟩ := gapSendScanEvt_sound _ _ _ _ hevt
      have hseq : evt.hdr.seq = req.seq := by rw [hhdr]
      have htype : evt.hdr.type = .scanEvt := by rw [hhdr]
      exact .of_some hsound ⟨hseq, .gap, hkind, by rw [htype]; decide⟩
  | discComplete =>
      cases h
      exact .of_some ⟨rfl, rfl, trivial⟩ (hmember _ (by decide) _)
  | connect status connHandle =>
      cases h
      exact .of_some ⟨rfl, rfl, trivial⟩ (hmember _ (by decide) _)
  | disconnect reason conn =>
      cases h
      exact .of_some ⟨rfl, rfl, trivial⟩ (hmember _ (by decide) _)
  | mtu connHandle channelId value =>
      unfold gapEvent at h
      dsimp only at h
      split_ifs at h <;> cases h
      · exact .of_some ⟨rfl, rfl, trivial⟩ (hmember _ (by decide) _)
      · exact .of_none
  | notifyRx om connHandle attrHandle indication =>
      unfold gapEvent at h
      dsimp only at h
      cases hflat : host.toFlat om BLE_ATT_ATTR_MAX_LEN with
      | none =>
          simp only [hflat] at h
          cases h
          exact .of_none
      | some buf =>
          simp only [hflat] at h
          cases h
          have htype : MsgType.notifyRxEvt ∈ drawnTypes := by decide
          exact .drawn _ rfl ⟨rfl, rfl, buf.property⟩ htype rfl rfl
  | advComplete =>
      cases h
      exact .of_some ⟨rfl, rfl, trivial⟩ (hmember _ (by decide) _)
  | encChange status connHandle =>
      cases h
      exact .of_some ⟨rfl, rfl, trivial⟩ (hmember _ (by decide) _)
  | passkeyAction connHandle action numcmp =>
      cases h
      exact .of_some ⟨rfl, rfl, trivial⟩ (hmember _ (by decide) _)
  | repeatPairing connHandle =>
      unfold gapEvent at h
      dsimp only at h
      cases hfind : host.connFind connHandle with
      | none =>
          simp only [hfind] at h
          cases h
      | some desc =>
          simp only [hfind] at h
          cases h
          exact .of_none
  | other =>
      cases h
      exact .of_none

theorem report_reported (host : CbHost) (req : MsgHdr) (input : CbInput) (nextSeq : UInt32)
    (outcome : CbOutcome) (h : Service.report host req input nextSeq = some outcome) :
    Reported req nextSeq outcome := by
  unfold Service.report at h
  by_cases hkind : req.type.kind = some input.kind
  · rw [if_pos hkind] at h
    cases input with
    | gapEvent event =>
        dsimp only at h
        cases hevent : gapEvent host event req.seq nextSeq with
        | error fault =>
            rw [hevent] at h
            cases h
        | ok other =>
            rw [hevent] at h
            obtain rfl : other = outcome := Option.some.inj h
            exact gapEvent_reported host event req nextSeq other hkind hevent
    | _ =>
        cases h
        exact .of_some ⟨rfl, rfl, trivial⟩ ⟨rfl, _, hkind, List.mem_singleton.mpr rfl⟩
  · rw [if_neg hkind] at h
    cases h

theorem Reported.sound {req : MsgHdr} {nextSeq : UInt32} {outcome : CbOutcome}
    (h : Reported req nextSeq outcome) (evt : Evt) (hevt : outcome.evt = some evt) :
    evt.Sound := by
  cases h with
  | solicited hnext hall => exact (hall evt hevt).1
  | drawn other hother hsound htype hseq hnext =>
      obtain rfl := Option.some.inj (hevt.symm.trans hother)
      exact hsound

theorem gattsAccess_sound (host : CbHost) (accessOp : UInt8) (connHandle attrHandle : UInt16)
    (om : Mbuf) (seq : UInt32) (evt : Evt)
    (h : gattsAccess host accessOp connHandle attrHandle om seq = some evt) :
    evt.Sound ∧ evt.hdr = ⟨.evt, .accessEvt, seq⟩ := by
  obtain ⟨buf, _, rfl⟩ := Option.map_eq_some_iff.mp h
  exact ⟨⟨rfl, rfl, buf.property⟩, rfl⟩

end Blehostd
