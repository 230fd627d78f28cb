import Blehostd.Requests
import Blehostd.Services.Theorems

namespace Blehostd

-- An add_svcs request that comes to a descriptor: the services in front of it are valid,
-- and so is what its own service has in front of the descriptor.
def Overruns (root : Option Json) : Prop :=
  ∃ json seq before item after, root = some json ∧ msgHdrDec json = .ok ⟨.req, .addSvcs, seq⟩ ∧
    json.getObjectItem "services" = some (.array (before ++ item :: after)) ∧
    (∀ svc ∈ before, ValidSvc svc) ∧ ReachesDsc item

-- Services and characteristics have slots of their own, so the writes outside are those of
-- the descriptors.
theorem fillSvcs_outside (junk : Nat → Nat → Nat → Gatts.Dsc) (items : List Json) :
    (fillSvcs junk items).Meets Outside ↔ ∃ before item after,
      items = before ++ item :: after ∧ (∀ svc ∈ before, ValidSvc svc) ∧ ReachesDsc item := by
  apply Decoder.meets_each
  · intro si item
    simp only [clearElem, Decoder.result_bind _ _ _ (Decoder.look_result _ _),
      (fillSvc_agrees _ (junk si) item).result, validSvc_iff]
  · intro si hsi item
    have hinside : ¬Outside ⟨si, items.length⟩ := by
      simp only [Outside, ElemWrite.Inside, not_not]
      omega
    rw [clearElem, Decoder.meets_look_bind, fillSvc_outside]
    simp only [hinside, false_or]

theorem addSvcsWrites_outside (r : Req) :
    (∃ w ∈ addSvcsWrites r, Outside w) ↔ ∃ before item after,
      r.parent.getObjectItem "services" = some (.array (before ++ item :: after)) ∧
        (∀ svc ∈ before, ValidSvc svc) ∧ ReachesDsc item := by
  unfold addSvcsWrites
  cases harr : jsonArr r.parent "services" with
  | error e =>
      simp only [List.not_mem_nil, false_and, exists_false, false_iff]
      rintro ⟨before, item, after, hservices, -⟩
      rw [(jsonArr_ok _ _ _).mpr hservices] at harr
      cases harr
  | ok items =>
      rw [(jsonArr_ok _ _ _).mp harr]
      simp only [Option.some.injEq, Json.array.injEq]
      exact fillSvcs_outside r.junk.dscs items

theorem reqWrites_of (json : Json) (seq : UInt32) (junk : Junk)
    (hhdr : msgHdrDec json = .ok ⟨.req, .addSvcs, seq⟩) :
    reqWrites (some json) junk = addSvcsWrites ⟨json, seq, junk⟩ := by
  simp only [reqWrites, hhdr]

-- The other requests have no blocks of their own.
theorem reqWrites_none (root : Option Json) (junk : Junk)
    (h : ∀ json seq, root = some json → msgHdrDec json ≠ .ok ⟨.req, .addSvcs, seq⟩) :
    reqWrites root junk = [] := by
  cases root with
  | none => rfl
  | some json =>
      simp only [reqWrites]
      split
      · rename_i seq hhdr
        exact absurd hhdr (h json seq rfl)
      · rfl

theorem reqWrites_outside (root : Option Json) (junk : Junk) :
    (∃ w ∈ reqWrites root junk, Outside w) ↔ Overruns root := by
  by_cases h : ∃ json seq, root = some json ∧ msgHdrDec json = .ok ⟨.req, .addSvcs, seq⟩
  · obtain ⟨json, seq, rfl, hhdr⟩ := h
    rw [reqWrites_of json seq junk hhdr, addSvcsWrites_outside]
    constructor
    · rintro ⟨before, item, after, hservices, hvalid, hreaches⟩
      exact ⟨json, seq, before, item, after, rfl, hhdr, hservices, hvalid, hreaches⟩
    · rintro ⟨other, _, before, item, after, hjson, -, hservices, hvalid, hreaches⟩
      obtain rfl := Option.some.inj hjson
      exact ⟨before, item, after, hservices, hvalid, hreaches⟩
  · have hnone : ∀ json seq, root = some json → msgHdrDec json ≠ .ok ⟨.req, .addSvcs, seq⟩ := by
      intro json seq hroot hhdr
      exact h ⟨json, seq, hroot, hhdr⟩
    rw [reqWrites_none root junk hnone]
    simp only [List.not_mem_nil, false_and, exists_false, false_iff]
    rintro ⟨json, seq, _, _, _, hroot, hhdr, -⟩
    exact hnone json seq hroot hhdr

theorem reqWrites_inside (root : Option Json) (junk : Junk) :
    (∀ w ∈ reqWrites root junk, w.Inside) ↔ ¬Overruns root := by
  rw [← reqWrites_outside root junk]
  simp only [Outside, not_exists, not_and, not_not]

section Decoding

variable {root : Option Json} (junk : Junk) (host : Host) (world : World)

theorem reqDec_inside (h : ¬Overruns root) :
    reqDec root junk host world = reqOutcome root junk host world :=
  if_pos ((reqWrites_inside root junk).mpr h)

theorem reqDec_overruns (h : Overruns root) :
    reqDec root junk host world = .error .outOfBounds := by
  apply if_neg
  rw [reqWrites_inside]
  exact not_not.mpr h

theorem reqDec_ok (outcome : Outcome) :
    reqDec root junk host world = .ok outcome ↔
      ¬Overruns root ∧ reqOutcome root junk host world = .ok outcome := by
  by_cases h : Overruns root
  · simp [reqDec_overruns junk host world h, h]
  · simp [reqDec_inside junk host world h, h]

theorem reqDec_outcome {outcome : Outcome} (h : reqDec root junk host world = .ok outcome) :
    reqOutcome root junk host world = .ok outcome :=
  ((reqDec_ok junk host world outcome).mp h).2

end Decoding

-- A request without descriptors stays inside.
theorem not_overruns_of_plain (json : Json)
    (h : ∀ svcs, json.getObjectItem "services" = some (.array svcs) → ∀ svc ∈ svcs, ∀ chrs,
      ListField svc "characteristics" chrs → ∀ chr ∈ chrs, ListField chr "descriptors" []) :
    ¬Overruns (some json) := by
  rintro ⟨_, _, before, svc, after, hjson, -, hservices, -, -, chrs, chr, others, hchrs, -, -,
    dscs, hdscs, hsome⟩
  obtain rfl := Option.some.inj hjson
  have hnone := h _ hservices svc (by simp) _ hchrs chr (by simp)
  exact hsome (hdscs.unique hnone)

-- A request of another type.
theorem not_overruns {json : Json} {op : MsgOp} {type : MsgType} {seq : UInt32}
    (hhdr : msgHdrDec json = .ok ⟨op, type, seq⟩) (htype : type ≠ .addSvcs) :
    ¬Overruns (some json) := by
  rintro ⟨other, _, _, _, _, hjson, hother, -⟩
  obtain rfl := Option.some.inj hjson
  exact htype (congrArg MsgHdr.type (Except.ok.inj (hhdr.symm.trans hother)))

end Blehostd
