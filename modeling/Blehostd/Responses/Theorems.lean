import Blehostd.Responses

namespace Blehostd

open Json (sameKey)

theorem getObjectItem_cons (key : Text) (item : Json) (rest : Members) (name : String) :
    (Json.object ((key, item) :: rest)).getObjectItem name =
      if sameKey key name then some item else (Json.object rest).getObjectItem name := by
  by_cases h : sameKey key name <;> simp [Json.getObjectItem, h]

-- The members of the header come first, and none of them is called "status".
theorem getObjectItem_status (hdr : MsgHdr) (status : Int) (rest : Members) :
    (Json.object (msgHdrEnc hdr ++ (addInt "status" status ++ rest))).getObjectItem "status" =
      some (.number status) := by
  have hop : sameKey (ascii "op") "status" = false := by decide
  have htype : sameKey (ascii "type") "status" = false := by decide
  have hseq : sameKey (ascii "seq") "status" = false := by decide
  have hstatus : sameKey (ascii "status") "status" = true := by decide
  simp only [msgHdrEnc, addName, addString, addText, addInt, List.cons_append, List.nil_append,
    getObjectItem_cons, hop, htype, hseq, hstatus, if_true, if_false, Bool.false_eq_true]

-- Every response but sync and reset starts with its status.
theorem rspDispatchFind_status (type : MsgType) (enc : SubrspEnc)
    (henc : rspDispatchFind type = .ok enc) (hsync : type ≠ .sync) (hreset : type ≠ .reset)
    (uuidToStr : Uuid → Text) (rsp : Rsp) (members : Members)
    (h : enc uuidToStr rsp = .ok members) :
    ∃ rest, members = addInt "status" rsp.status ++ rest := by
  have hplain : ∀ members, statusRspEnc uuidToStr rsp = .ok members →
      ∃ rest, members = addInt "status" rsp.status ++ rest := by
    intro members h
    exact ⟨[], by simpa using (Except.ok.inj h).symm⟩
  cases type <;> cases henc
  case sync => exact absurd rfl hsync
  case reset => exact absurd rfl hreset
  case commitSvcs =>
    obtain ⟨svcs, _, hsvcs⟩ := (bind_ok _ _ _).mp h
    exact ⟨_, (Except.ok.inj hsvcs).symm⟩
  case connFind =>
    have := (Except.ok.inj h).symm
    simp only [List.append_assoc] at this
    exact ⟨_, this⟩
  case findChr =>
    have := (Except.ok.inj h).symm
    simp only [List.append_assoc] at this
    exact ⟨_, this⟩
  case err => exact ⟨_, (Except.ok.inj h).symm⟩
  case genRandAddr => exact ⟨_, (Except.ok.inj h).symm⟩
  case advFields => exact ⟨_, (Except.ok.inj h).symm⟩
  all_goals exact hplain members h

theorem rspEnc_ok (uuidToStr : Uuid → Text) (rsp : Rsp) (root : Json) :
    rspEnc uuidToStr rsp = .ok root ↔ ∃ enc members, rspDispatchFind rsp.hdr.type = .ok enc ∧
      enc uuidToStr rsp = .ok members ∧ root = .object (msgHdrEnc rsp.hdr ++ members) := by
  unfold rspEnc
  simp only [bind_ok, Except.ok.injEq]
  constructor
  · intro h
    obtain ⟨enc, henc, members, hmembers, rfl⟩ := h
    exact ⟨enc, members, henc, hmembers, rfl⟩
  · intro h
    obtain ⟨enc, members, henc, hmembers, rfl⟩ := h
    exact ⟨enc, henc, members, hmembers, rfl⟩

theorem rspEnc_status (uuidToStr : Uuid → Text) (rsp : Rsp) (root : Json)
    (h : rspEnc uuidToStr rsp = .ok root) (hsync : rsp.hdr.type ≠ .sync)
    (hreset : rsp.hdr.type ≠ .reset) :
    root.getObjectItem "status" = some (.number rsp.status) := by
  obtain ⟨enc, members, henc, hmembers, rfl⟩ := (rspEnc_ok uuidToStr rsp root).mp h
  obtain ⟨rest, rfl⟩ :=
    rspDispatchFind_status _ enc henc hsync hreset uuidToStr rsp members hmembers
  exact getObjectItem_status rsp.hdr rsp.status rest

-- Without services to list, no encoder can fail.
theorem rspDispatchFind_total (type : MsgType) (enc : SubrspEnc)
    (henc : rspDispatchFind type = .ok enc) (uuidToStr : Uuid → Text) (rsp : Rsp)
    (hbody : commitSvcsOf rsp.body = []) : ∃ members, enc uuidToStr rsp = .ok members := by
  cases type <;> cases henc
  case commitSvcs =>
    simp only [commitSvcsRspEnc, hbody]
    exact ⟨_, rfl⟩
  all_goals exact ⟨_, rfl⟩

theorem rspEnc_total (uuidToStr : Uuid → Text) (rsp : Rsp)
    (henc : ∃ enc, rspDispatchFind rsp.hdr.type = .ok enc) (hbody : commitSvcsOf rsp.body = []) :
    ∃ root, rspEnc uuidToStr rsp = .ok root := by
  obtain ⟨enc, henc⟩ := henc
  obtain ⟨members, hmembers⟩ := rspDispatchFind_total _ enc henc uuidToStr rsp hbody
  exact ⟨_, (rspEnc_ok _ _ _).mpr ⟨enc, members, henc, hmembers, rfl⟩⟩

-- The response of every request type with a handler can be encoded.
theorem reqDispatchFind_enc (type : MsgType) (run : ReqRun)
    (hrun : reqDispatchFind type = some run) : ∃ enc, rspDispatchFind type = .ok enc := by
  cases type <;> cases hrun <;> exact ⟨_, rfl⟩

end Blehostd
