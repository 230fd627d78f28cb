import Blehostd.Requests.Answers
import Blehostd.Requests.Overruns
import Blehostd.Responses.Theorems

namespace Blehostd

namespace Exit

theorem apply_status (e : Exit) (rsp : Rsp) : (e.apply rsp).status = e.rc.code := by
  unfold Exit.apply
  cases e.report <;> rfl

theorem apply_type (e : Exit) (rsp : Rsp) :
    (e.apply rsp).hdr.type = rsp.hdr.type ∨ (e.apply rsp).hdr.type = .err := by
  unfold Exit.apply
  cases e.report
  · exact Or.inr rfl
  · exact Or.inl rfl
  · exact Or.inl rfl

theorem apply_seq (e : Exit) (rsp : Rsp) : (e.apply rsp).hdr.seq = rsp.hdr.seq := by
  unfold Exit.apply
  cases e.report <;> rfl

end Exit

theorem runReq_exit (run : ReqRun) (r : Req) (host : Host) (rsp : Rsp) (world : World) (e : Exit)
    (h : (run r).result = .error e) :
    runReq run r host rsp world = .ok ⟨e.ret, e.apply rsp, world, []⟩ := by
  simp only [runReq, h]

theorem runReq_action (run : ReqRun) (r : Req) (host : Host) (rsp : Rsp) (world : World)
    (action : Action) (h : (run r).result = .ok action) (outcome : Outcome) :
    runReq run r host rsp world = .ok outcome ↔
      ∃ answer, action host rsp world = .ok answer ∧ outcome = ⟨1, answer⟩ := by
  simp only [runReq, h]
  cases action host rsp world with
  | error fault => simp [Except.map]
  | ok answer => simp [Except.map, eq_comm]

-- No call, no change, and a response with an error in its status.
def Refused (uuidToStr : Uuid → Text) (type : MsgType) (run : ReqRun) (r : Req) (host : Host)
    (world : World) : Prop :=
  ∃ outcome root status, runReq run r host (Rsp.cleared type r.seq) world = .ok outcome ∧
    outcome.answer.calls = [] ∧ outcome.answer.world = world ∧ outcome.ret ≠ 0 ∧
    rspEnc uuidToStr outcome.answer.rsp = .ok root ∧
    root.getObjectItem "status" = some (.number status) ∧ status ≠ 0

-- Both handles of a notify request are good and its data is not.
def BadNotifyData (parent : Json) : Prop :=
  (∃ c, jsonInt 0 0xffff parent "conn_handle" = .ok c) ∧
    (∃ a, jsonInt 0 0xffff parent "attr_handle" = .ok a) ∧
    ∃ e, jsonHexString (BLE_ATT_ATTR_MAX_LEN + 3) parent "data" = .error e

theorem notify_strict (r : Req) (h : ¬BadNotifyData r.parent) : StrictReq (notifyReqRun r) := by
  apply Decoder.strict_bind_of_ok _ _ (strict_need _ _ _ _ Exit.own_sent)
  intro c hc
  apply Decoder.strict_bind_of_ok _ _ (strict_need _ _ _ _ Exit.own_sent)
  intro a ha
  cases hdata : jsonHexString (BLE_ATT_ATTR_MAX_LEN + 3) r.parent "data" with
  | error e =>
      exact absurd ⟨⟨c, need_result _ _ _ _ _ hc⟩, ⟨a, need_result _ _ _ _ _ ha⟩, e, hdata⟩ h
  | ok bytes =>
      apply Decoder.strict_bind
      · unfold attempt
        rw [hdata]
        apply Decoder.strict_look
        · intro _ _
          exact not_failed_none _ _
        · intro e he
          cases he
      · intro _
        exact strict_done _

-- The bad data is passed over and an empty notification goes out.
theorem notify_bad (r : Req) (h : BadNotifyData r.parent) :
    ∃ e req, (notifyReqRun r).result = .ok (gattcNotify req) ∧
      ⟨"data", false, some e⟩ ∈ (notifyReqRun r).lookups := by
  obtain ⟨⟨c, hc⟩, ⟨a, ha⟩, e, he⟩ := h
  refine ⟨e, ⟨UInt16.ofInt c, UInt16.ofInt a, []⟩, ?_, ?_⟩
  · simp only [notifyReqRun, need_ok _ _ _ _ _ hc, need_ok _ _ _ _ _ ha, attempt, he, bind, pure,
      Decoder.look, Except.toOption, Option.getD]
  · simp only [notifyReqRun, need_ok _ _ _ _ _ hc, need_ok _ _ _ _ _ ha, attempt, he, bind, pure,
      Decoder.look, rcOf]
    simp

def zeroJunk : Junk := ⟨fun _ _ _ => ⟨.zero, 0, 0⟩, Vector.replicate _ 0, 0, Vector.replicate _ 0⟩

-- A host that accepts everything.
def acceptingHost : Host :=
  { synced := true
    result := fun _ => 0
    mbuf := true
    rndAddr := Vector.replicate 6 0
    connDesc := ConnFindRsp.zero
    advData := ⟨[], Nat.zero_le _⟩
    defHandle := 0
    valHandle := 0
    valHandles := fun slot => UInt16.ofNat (3 + 2 * slot)
    callocSvcs := true
    callocChrs := fun _ => true }

-- Lower-case digits in the order of the text form, from value[15] down.
def canonicalUuid : Uuid → Text
  | .u16 value => ascii "0x" ++ hexByte (value >>> 8).toUInt8 ++ hexByte value.toUInt8
  | .u32 value => ascii "0x" ++ hexByte (value >>> 24).toUInt8 ++ hexByte (value >>> 16).toUInt8 ++
      hexByte (value >>> 8).toUInt8 ++ hexByte value.toUInt8
  | .u128 value =>
      let digits := value.toList.reverse.map hexByte
      let group (i n : Nat) := ((digits.drop i).take n).flatten
      group 0 4 ++ ascii "-" ++ group 4 2 ++ ascii "-" ++ group 6 2 ++ ascii "-" ++ group 8 2 ++
        ascii "-" ++ group 10 6

-- The first two members of the header are good.
def HeaderKnown (root : Json) : Prop :=
  (∃ op, jsonKv opMap root "op" = .ok op) ∧ ∃ type, jsonKv typeMap root "type" = .ok type

theorem jsonInt_number (root : Json) (name : String) (n minval maxval : Int)
    (hitem : root.getObjectItem name = some (.number n)) (hmin : minval ≤ n) (hmax : n ≤ maxval) :
    jsonInt minval maxval root name = .ok n := by
  have hbounds : ¬(n < minval ∨ maxval < n) := by omega
  simp [jsonInt, jsonIntBounds, hitem, processJsonIntBounds, processJsonInt, hbounds, checked]

-- The header decoder: one of the three members is bad, or all are good.
theorem msgHdrDec_cases (root : Json) :
    (∃ rc, msgHdrDec root = .error (rc, "invalid op") ∧ jsonKv opMap root "op" = .error rc) ∨
    (∃ rc, msgHdrDec root = .error (rc, "invalid type") ∧
      jsonKv typeMap root "type" = .error rc) ∨
    (∃ rc, msgHdrDec root = .error (rc, "invalid seq") ∧
      jsonInt 0 BHD_SEQ_MAX.toNat root "seq" = .error rc) ∨
    ∃ op type n, msgHdrDec root = .ok ⟨op, type, UInt32.ofInt n⟩ ∧
      jsonKv opMap root "op" = .ok op ∧ jsonKv typeMap root "type" = .ok type ∧
      jsonInt 0 BHD_SEQ_MAX.toNat root "seq" = .ok n := by
  unfold msgHdrDec
  cases hop : jsonKv opMap root "op" with
  | error rc => exact Or.inl ⟨rc, rfl, rfl⟩
  | ok op =>
      cases htype : jsonKv typeMap root "type" with
      | error rc => exact Or.inr (Or.inl ⟨rc, rfl, rfl⟩)
      | ok type =>
          cases hseq : jsonInt 0 BHD_SEQ_MAX.toNat root "seq" with
          | error rc => exact Or.inr (Or.inr (Or.inl ⟨rc, rfl, rfl⟩))
          | ok n => exact Or.inr (Or.inr (Or.inr ⟨op, type, n, rfl, rfl, rfl, rfl⟩))

theorem msgHdrDec_ok (root : Json) (hdr : MsgHdr) (h : msgHdrDec root = .ok hdr) :
    ∃ n, jsonKv opMap root "op" = .ok hdr.op ∧ jsonKv typeMap root "type" = .ok hdr.type ∧
      jsonInt 0 BHD_SEQ_MAX.toNat root "seq" = .ok n ∧ hdr.seq = UInt32.ofInt n := by
  rcases msgHdrDec_cases root with ⟨rc, hbad, -⟩ | ⟨rc, hbad, -⟩ | ⟨rc, hbad, -⟩ |
    ⟨op, type, n, hgood, hop, htype, hseq⟩
  · exact absurd (h.symm.trans hbad) (by simp)
  · exact absurd (h.symm.trans hbad) (by simp)
  · exact absurd (h.symm.trans hbad) (by simp)
  · obtain rfl := Except.ok.inj (h.symm.trans hgood)
    exact ⟨n, hop, htype, hseq, rfl⟩

theorem msgHdrDec_known (root : Json) (n : Int) (hknown : HeaderKnown root)
    (hseq : jsonInt 0 BHD_SEQ_MAX.toNat root "seq" = .ok n) :
    ∃ op type, msgHdrDec root = .ok ⟨op, type, UInt32.ofInt n⟩ := by
  obtain ⟨⟨op, hop⟩, type, htype⟩ := hknown
  refine ⟨op, type, ?_⟩
  simp only [msgHdrDec, hop, htype, hseq, Except.mapError, bind, Except.bind]

theorem msgHdrDec_unknown (root : Json) (hunknown : ¬HeaderKnown root) :
    ∃ rc msg, msgHdrDec root = .error (rc, msg) := by
  rcases msgHdrDec_cases root with ⟨rc, hbad, -⟩ | ⟨rc, hbad, -⟩ | ⟨rc, hbad, -⟩ |
    ⟨op, type, n, -, hop, htype, -⟩
  · exact ⟨rc, _, hbad⟩
  · exact ⟨rc, _, hbad⟩
  · exact ⟨rc, _, hbad⟩
  · exact absurd ⟨⟨op, hop⟩, type, htype⟩ hunknown

theorem gattsCommitSvcs_seq (host : Host) (rsp : Rsp) (world : World) (answer : Answer)
    (h : gattsCommitSvcs host rsp world = .ok answer) : answer.rsp.hdr = rsp.hdr := by
  obtain ⟨commit, _, hanswer⟩ := (bind_ok _ _ _).mp h
  exact congrArg (·.rsp.hdr) (Except.ok.inj hanswer).symm

theorem runReq_seq (type : MsgType) (run : ReqRun) (hrun : reqDispatchFind type = some run)
    (r : Req) (host : Host) (rsp : Rsp) (world : World) (outcome : Outcome)
    (h : runReq run r host rsp world = .ok outcome) :
    outcome.answer.rsp.hdr.seq = rsp.hdr.seq := by
  cases hresult : (run r).result with
  | error e =>
      rw [runReq_exit run r host rsp world e hresult] at h
      cases h
      exact e.apply_seq rsp
  | ok action =>
      obtain ⟨answer, hanswer, rfl⟩ := (runReq_action run r host rsp world action hresult _).mp h
      by_cases hcommit : type = .commitSvcs
      · subst hcommit
        cases hrun
        cases hresult
        exact congrArg MsgHdr.seq (gattsCommitSvcs_seq host rsp world answer hanswer)
      · obtain ⟨other, hother, hfollows⟩ :=
          reqDispatchFind_answers type run hrun hcommit r action hresult host rsp world
        obtain rfl : answer = other := Except.ok.inj (hanswer.symm.trans hother)
        exact hfollows.seq

-- Once the header is decoded, every path leaves its sequence number in place.
theorem reqOutcome_seq (root : Json) (junk : Junk) (host : Host) (world : World) (outcome : Outcome)
    (hdr : MsgHdr) (hhdr : msgHdrDec root = .ok hdr)
    (h : reqOutcome (some root) junk host world = .ok outcome) :
    outcome.answer.rsp.hdr.seq = hdr.seq := by
  simp only [reqOutcome, hhdr] at h
  by_cases hop : hdr.op = .req
  · simp only [hop, ne_eq, not_true_eq_false, if_false] at h
    cases hrun : reqDispatchFind hdr.type with
    | none =>
        simp only [hrun] at h
        cases h
        rfl
    | some run =>
        simp only [hrun] at h
        exact runReq_seq hdr.type run hrun _ host _ world outcome h
  · simp only [hop, ne_eq, not_false_eq_true, if_true] at h
    cases h
    rfl

theorem toNat_ofInt_seq (n : Int) (hmin : 0 ≤ n) (hmax : n ≤ BHD_SEQ_MAX.toNat) :
    ((UInt32.ofInt n).toNat : Int) = n := by
  have hsmall : n < 2 ^ 32 := Int.lt_of_le_of_lt hmax (by decide)
  have hmod : n % 2 ^ 32 = n := Int.emod_eq_of_lt hmin hsmall
  rw [UInt32.ofInt, hmod, UInt32.toNat_ofNat']
  omega

theorem response_seq_iff (root : Json) (junk : Junk) (host : Host) (world : World)
    (outcome : Outcome) (n : Int) (hitem : root.getObjectItem "seq" = some (.number n))
    (hmin : 0 ≤ n) (hmax : n ≤ BHD_SEQ_MAX.toNat)
    (h : reqDec (some root) junk host world = .ok outcome) :
    (outcome.answer.rsp.hdr.seq.toNat : Int) = n ↔ HeaderKnown root ∨ n = 0 := by
  have hseq := jsonInt_number root "seq" n 0 BHD_SEQ_MAX.toNat hitem hmin hmax
  have h := reqDec_outcome junk host world h
  by_cases hknown : HeaderKnown root
  · obtain ⟨op, type, hhdr⟩ := msgHdrDec_known root n hknown hseq
    have hkept := reqOutcome_seq root junk host world outcome _ hhdr h
    rw [hkept]
    simp only [hknown, true_or, iff_true]
    exact toNat_ofInt_seq n hmin hmax
  · obtain ⟨rc, msg, hhdr⟩ := msgHdrDec_unknown root hknown
    simp only [reqOutcome, hhdr] at h
    cases h
    simp only [hknown, false_or]
    exact eq_comm

def headerOf (op type : String) (seq : Int) : Json :=
  .object [(ascii "op", .string (ascii op)), (ascii "type", .string (ascii type)),
    (ascii "seq", .number seq)]

theorem sync_keeps_seq : ∃ outcome,
    reqDec (some (headerOf "request" "sync" 7)) zeroJunk acceptingHost World.initial =
      .ok outcome ∧ (outcome.answer.rsp.hdr.seq.toNat : Int) = 7 := by
  have hrun : ∃ outcome, reqDec (some (headerOf "request" "sync" 7)) zeroJunk acceptingHost
      World.initial = .ok outcome := ⟨_, rfl⟩
  obtain ⟨outcome, h⟩ := hrun
  have hknown : HeaderKnown (headerOf "request" "sync" 7) := ⟨⟨.req, rfl⟩, .sync, rfl⟩
  refine ⟨outcome, h, ?_⟩
  exact (response_seq_iff _ _ _ _ outcome 7 rfl (by decide) (by decide) h).mpr (Or.inl hknown)

-- The type is looked at before the sequence number.
theorem unknown_type_loses_seq : ∃ outcome,
    reqDec (some (headerOf "request" "scann" 7)) zeroJunk acceptingHost World.initial =
      .ok outcome ∧
    (headerOf "request" "scann" 7).getObjectItem "seq" = some (.number 7) ∧
    outcome.answer.rsp.hdr.seq = 0 :=
  ⟨_, rfl, rfl, rfl⟩

end Blehostd
