import Blehostd.Gatts.Access.Theorems
import Blehostd.Requests.Theorems

namespace Blehostd

-- What a read of the attribute appends.
def Gatts.Access.stored (a : Gatts.Access) : List UInt8 :=
  a.value.take a.valueLen

-- An access_status request that is accepted, with the state behind it.
def Accepts (parent : Json) (junk : Junk) (world next : World) : Prop :=
  ∃ seq host rsp outcome,
    runReq accessStatusReqRun ⟨parent, seq, junk⟩ host rsp world = .ok outcome ∧
    outcome.answer.rsp.status = 0 ∧ outcome.answer.world = next

-- The value that the reply names.
def replyValue (parent : Json) : List UInt8 :=
  (jsonHexString BLE_ATT_ATTR_MAX_LEN parent "data").toOption.getD []

def StoresReply (parent : Json) : Prop :=
  ∀ junk world next, Accepts parent junk world next → next.access.stored = replyValue parent

def World.withValue (world : World) (value : List UInt8) : World :=
  { world with access := { world.access with value := value } }

-- Two runs that differ in the memory the handler and the last reply left behind.
def StoresSame (parent : Json) : Prop :=
  ∀ (junk junk' : Junk) (world : World) (value value' : List UInt8) (next next' : World),
    Accepts parent junk (world.withValue value) next →
    Accepts parent junk' (world.withValue value') next' →
    next.access.stored = next'.access.stored

def StatusKnown (parent : Json) : Prop :=
  ∃ attStatus, jsonInt 0 UINT8_MAX parent "att_status" = .ok attStatus

theorem parseTokens_length (sval : Text) (maxLen : Nat) (toks : List Text) (dst : List UInt8)
    (hdst : dst.length ≤ maxLen) : (parseTokens sval maxLen toks dst).2.length ≤ maxLen := by
  induction toks generalizing dst with
  | nil => exact hdst
  | cons token rest ih =>
      simp only [parseTokens]
      split_ifs with hfull hbad
      · exact hdst
      · exact hdst
      · apply ih
        rw [List.length_append, List.length_singleton]
        omega

theorem hexString_length (maxLen : Nat) (item : Json) (bytes : List UInt8)
    (h : processJsonHexString maxLen item = .ok bytes) : bytes.length ≤ maxLen := by
  unfold processJsonHexString at h
  split at h
  · rename_i valstr _
    have hlength := parseTokens_length valstr maxLen (tokens valstr) [] (Nat.zero_le _)
    cases hrc : (parseArgByteStream valstr maxLen).1 with
    | some e =>
        simp only [hrc, checked] at h
        cases h
    | none =>
        simp only [hrc, checked] at h
        rw [← Except.ok.inj h]
        exact hlength
  · cases h

theorem hexString_not_enoent (maxLen : Nat) (item : Json) :
    processJsonHexString maxLen item ≠ .error .enoent := by
  intro h
  unfold processJsonHexString at h
  split at h
  · rename_i valstr _
    have hparse : ∀ toks dst, (parseTokens valstr maxLen toks dst).1 ≠ some .enoent := by
      intro toks dst
      induction toks generalizing dst with
      | nil => exact nofun
      | cons token rest ih =>
          simp only [parseTokens]
          split_ifs
          · exact nofun
          · exact nofun
          · exact ih _
    cases hrc : (parseArgByteStream valstr maxLen).1 with
    | none =>
        simp only [hrc, checked] at h
        cases h
    | some e =>
        simp only [hrc, checked] at h
        exact hparse _ _ (hrc.trans (congrArg some (Except.error.inj h)))
  · split_ifs at h with henoent
    · cases h
    · exact henoent (Except.error.inj h)

-- Only an absent member gives SYS_ENOENT.
theorem data_absent_iff (parent : Json) :
    jsonHexString BLE_ATT_ATTR_MAX_LEN parent "data" = .error .enoent ↔
      parent.getObjectItem "data" = none := by
  unfold jsonHexString member
  cases parent.getObjectItem "data" with
  | none => simp
  | some item => simp [hexString_not_enoent]

theorem stored_of_store (attStatus : UInt8) (bytes : List UInt8) (dataLen : Int)
    (a : Gatts.Access) (hfree : a.attStatus = BHD_GATTS_ACCESS_STATUS_NONE)
    (hfits : Gatts.Access.clampLen dataLen ≤ bytes.length) :
    (Gatts.setAccessResult attStatus (some bytes) dataLen a).2.stored =
      bytes.take (Gatts.Access.clampLen dataLen) := by
  simp [Gatts.setAccessResult, Gatts.Access.store, hfree, Gatts.Access.semRelease,
    Gatts.Access.stored, hfits]

theorem clampLen_le (dataLen : Int) :
    Gatts.Access.clampLen dataLen ≤ BLE_ATT_ATTR_MAX_LEN := by
  unfold Gatts.Access.clampLen
  split_ifs with h
  · exact Nat.le_refl _
  · omega

-- What the handler passes to bhd_gatts_set_access_result.
theorem accessStatus_result (r : Req) (attStatus : Int)
    (hstatus : jsonInt 0 UINT8_MAX r.parent "att_status" = .ok attStatus) :
    (accessStatusReqRun r).result =
      match jsonHexString BLE_ATT_ATTR_MAX_LEN r.parent "data" with
      | .ok bytes => .ok (gattsAccessStatus (UInt8.ofInt attStatus) bytes bytes.length)
      | .error e =>
          if e = .enoent then
            .ok (gattsAccessStatus (UInt8.ofInt attStatus) r.junk.buf.toList r.junk.dataLen)
          else .error (.own e) := by
  unfold accessStatusReqRun
  rw [need_ok _ _ _ _ attStatus hstatus]
  unfold want
  cases hdata : jsonHexString BLE_ATT_ATTR_MAX_LEN r.parent "data" with
  | ok bytes => rfl
  | error e => by_cases henoent : e = .enoent <;> simp [bind, Decoder.look, pure, henoent]

theorem accepts_known (parent : Json) (junk : Junk) (world next : World)
    (h : Accepts parent junk world next) : StatusKnown parent := by
  obtain ⟨seq, host, rsp, outcome, hrun, hstatus, _⟩ := h
  cases hknown : jsonInt 0 UINT8_MAX parent "att_status" with
  | ok attStatus => exact ⟨attStatus, hknown⟩
  | error e =>
      have hexit : (accessStatusReqRun ⟨parent, seq, junk⟩).result = .error (.own e) := by
        unfold accessStatusReqRun
        rw [need_error _ _ _ _ e hknown]
        rfl
      rw [runReq_exit _ _ _ _ _ _ hexit] at hrun
      obtain rfl := (Except.ok.inj hrun).symm
      rw [Exit.apply_status] at hstatus
      exact absurd hstatus e.code_ne_zero

-- The critical section takes a reply only when no other is stored.
theorem setAccessResult_free (attStatus : UInt8) (data : Option (List UInt8)) (dataLen : Int)
    (a : Gatts.Access) (h : (Gatts.setAccessResult attStatus data dataLen a).1 = 0) :
    a.attStatus = BHD_GATTS_ACCESS_STATUS_NONE := by
  by_contra hheld
  simp [Gatts.setAccessResult, Gatts.Access.store, hheld, SYS_ENOENT] at h

theorem action_stores (parent : Json) (seq : UInt32) (junk : Junk) (host : Host) (rsp : Rsp)
    (world : World) (outcome : Outcome) (attStatus : UInt8) (bytes : List UInt8) (dataLen : Int)
    (haction : (accessStatusReqRun ⟨parent, seq, junk⟩).result =
      .ok (gattsAccessStatus attStatus bytes dataLen))
    (hrun : runReq accessStatusReqRun ⟨parent, seq, junk⟩ host rsp world = .ok outcome)
    (hstatus : outcome.answer.rsp.status = 0)
    (hfits : Gatts.Access.clampLen dataLen ≤ bytes.length) :
    outcome.answer.world.access.stored = bytes.take (Gatts.Access.clampLen dataLen) := by
  obtain ⟨answer, hanswer, rfl⟩ := (runReq_action _ _ _ _ _ _ haction _).mp hrun
  obtain rfl := Except.ok.inj hanswer
  have hfree := setAccessResult_free attStatus (some bytes) dataLen world.access hstatus
  exact stored_of_store attStatus bytes dataLen world.access hfree hfits

theorem accepts_present (parent : Json) (junk : Junk) (world next : World)
    (h : Accepts parent junk world next) (hdata : parent.getObjectItem "data" ≠ none) :
    next.access.stored = replyValue parent := by
  obtain ⟨attStatus, hattStatus⟩ := accepts_known parent junk world next h
  obtain ⟨seq, host, rsp, outcome, hrun, hstatus, rfl⟩ := h
  have hresult := accessStatus_result ⟨parent, seq, junk⟩ attStatus hattStatus
  unfold replyValue
  cases hhex : jsonHexString BLE_ATT_ATTR_MAX_LEN parent "data" with
  | ok bytes =>
      simp only [hhex] at hresult
      have hlength : bytes.length ≤ BLE_ATT_ATTR_MAX_LEN := by
        unfold jsonHexString member at hhex
        cases hitem : parent.getObjectItem "data" with
        | none => exact absurd hitem hdata
        | some item =>
            rw [hitem] at hhex
            exact hexString_length _ item bytes hhex
      have hclamp := Gatts.clampLen_fits bytes.length hlength
      rw [action_stores parent seq junk host rsp world outcome _ bytes _ hresult hrun hstatus
        (Nat.le_of_eq hclamp), hclamp, List.take_length]
      rfl
  | error e =>
      have hother : e ≠ .enoent := by
        rintro rfl
        exact hdata ((data_absent_iff parent).mp hhex)
      simp only [hhex, hother, if_false] at hresult
      rw [runReq_exit _ _ _ _ _ _ hresult] at hrun
      obtain rfl := (Except.ok.inj hrun).symm
      rw [Exit.apply_status] at hstatus
      exact absurd hstatus e.code_ne_zero

def junkOfLen (dataLen : Int) : Junk :=
  ⟨fun _ _ _ => ⟨.zero, 0, 0⟩, Vector.replicate _ 0, dataLen, Vector.replicate _ 0⟩

-- Without a data member the length and the bytes are those of the stack.
theorem absent_accepts (parent : Json) (hknown : StatusKnown parent)
    (hdata : parent.getObjectItem "data" = none) (dataLen : Nat)
    (hlen : dataLen ≤ BLE_ATT_ATTR_MAX_LEN) (value : List UInt8) :
    ∃ next, Accepts parent (junkOfLen dataLen) (World.initial.withValue value) next ∧
      next.access.stored.length = dataLen := by
  obtain ⟨attStatus, hattStatus⟩ := hknown
  have hresult := accessStatus_result ⟨parent, 0, junkOfLen dataLen⟩ attStatus hattStatus
  simp only [(data_absent_iff parent).mpr hdata, if_true] at hresult
  have hrun := (runReq_action _ _ acceptingHost (Rsp.cleared .accessStatus 0)
    (World.initial.withValue value) _ hresult _).mpr ⟨_, rfl, rfl⟩
  have hclamp : Gatts.Access.clampLen dataLen = dataLen := Gatts.clampLen_fits dataLen hlen
  have hbuf : Gatts.Access.clampLen (junkOfLen dataLen).dataLen ≤
      (junkOfLen dataLen).buf.toList.length := by
    rw [Vector.length_toList]
    exact clampLen_le dataLen
  have hstored := action_stores _ _ _ _ _ _ _ _ _ _ hresult hrun rfl hbuf
  refine ⟨_, ⟨0, acceptingHost, _, _, hrun, rfl, rfl⟩, ?_⟩
  rw [hstored, List.length_take_of_le hbuf]
  exact hclamp

-- The reply alone decides what is stored, unless it can be accepted and has no
-- data member.
theorem reply_decides_iff (parent : Json) :
    (StoresReply parent ↔ (parent.getObjectItem "data" ≠ none ∨ ¬StatusKnown parent)) ∧
      (StoresSame parent ↔ (parent.getObjectItem "data" ≠ none ∨ ¬StatusKnown parent)) := by
  have hstores : parent.getObjectItem "data" ≠ none ∨ ¬StatusKnown parent → StoresReply parent := by
    intro hgood junk world next h
    rcases hgood with hdata | hunknown
    · exact accepts_present parent junk world next h hdata
    · exact absurd (accepts_known parent junk world next h) hunknown
  constructor
  · refine ⟨?_, hstores⟩
    intro hreply
    by_contra hbad
    obtain ⟨hdata, hknown⟩ := not_or.mp hbad
    obtain ⟨next, hnext, hlength⟩ := absent_accepts parent (not_not.mp hknown) (not_not.mp hdata) 1
      (by decide) []
    rw [hreply _ _ next hnext] at hlength
    simp [replyValue, (data_absent_iff parent).mpr (not_not.mp hdata), Except.toOption] at hlength
  · constructor
    · intro hsame
      by_contra hbad
      obtain ⟨hdata, hknown⟩ := not_or.mp hbad
      have habsent := absent_accepts parent (not_not.mp hknown) (not_not.mp hdata)
      obtain ⟨next, hnext, hlength⟩ := habsent 0 (by decide) []
      obtain ⟨next', hnext', hlength'⟩ := habsent 1 (by decide) []
      have hequal := hsame _ _ World.initial [] [] next next' hnext hnext'
      rw [hequal] at hlength
      omega
    · intro hgood junk junk' world value value' next next' h h'
      rw [hstores hgood _ _ next h, hstores hgood _ _ next' h']

def bareReply : Json := .object [(ascii "att_status", .number 0)]

-- A reply without data: the value is one byte of the stack.
theorem bare_reply_stores_junk : ¬StoresReply bareReply ∧ ¬StoresSame bareReply := by
  have habsent := absent_accepts bareReply ⟨0, rfl⟩ rfl
  obtain ⟨next, hnext, hlength⟩ := habsent 0 (by decide) []
  obtain ⟨next', hnext', hlength'⟩ := habsent 1 (by decide) []
  constructor
  · intro hreply
    rw [hreply _ _ next' hnext', show replyValue bareReply = [] from rfl] at hlength'
    cases hlength'
  · intro hsame
    rw [hsame _ _ World.initial [] [] next next' hnext hnext', hlength'] at hlength
    cases hlength

end Blehostd
