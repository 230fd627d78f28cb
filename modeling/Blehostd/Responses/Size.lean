import Blehostd.Gatts.Listing
import Blehostd.Json.Layout.Theorems
import Blehostd.Responses.Theorems

namespace Blehostd

open Json (layout decimal quote membersSize memberSize itemsSize)

theorem addInt_item (name : String) (value : Int) :
    addInt name value = addItem name (.number value) :=
  rfl

theorem layout_number (depth : Nat) (n : Int) : layout depth (.number n) = decimal n :=
  rfl

theorem layout_array_nil (depth : Nat) : (layout depth (.array [])).length = 2 :=
  rfl

section Listing

variable (uuidToStr : Uuid → Text)

def uuidSize : Uuid → Nat
  | .u16 value => (decimal value.toNat).length
  | .u32 value => (decimal value.toNat).length
  | .u128 value => (quote (uuidToStr (.u128 value))).length

-- The names, the punctuation and the tabs of an entry make up the constant.
def chrSize (chr : Gatts.ListedChr) : Nat :=
  87 + uuidSize uuidToStr chr.uuid + (decimal (chr.valHandle - 1).toNat).length +
    (decimal chr.valHandle.toNat).length

def svcSize (svc : Gatts.ListedSvc) : Nat :=
  57 + uuidSize uuidToStr svc.uuid + itemsSize (svc.chrs.map (chrSize uuidToStr))

-- The length of the text of a commit_svcs response.
def listingSize (seq : UInt32) (svcs : List Gatts.ListedSvc) : Nat :=
  84 + (decimal seq.toNat).length + itemsSize (svcs.map (svcSize uuidToStr))

theorem mapM_sizes {α β γ : Type} (f : β → Except Fault γ) (entry : α → β) (size : γ → Nat)
    (expected : α → Nat) (items : List α)
    (h : ∀ a, ∃ c, f (entry a) = .ok c ∧ size c = expected a) :
    ∃ cs, (items.map entry).mapM f = .ok cs ∧ cs.map size = items.map expected := by
  induction items with
  | nil => exact ⟨[], rfl, rfl⟩
  | cons a rest ih =>
      obtain ⟨c, hc, hsize⟩ := h a
      obtain ⟨cs, hcs, hsizes⟩ := ih
      refine ⟨c :: cs, ?_, by simp [hsize, hsizes]⟩
      simp only [List.map_cons, List.mapM_cons, hc, hcs, bind, Except.bind]
      rfl

theorem createUuid_size (uuid : Uuid) : ∃ item, createUuid uuidToStr (.known uuid) = .ok item ∧
    ∀ depth, (layout depth item).length = uuidSize uuidToStr uuid := by
  cases uuid with
  | u16 value => exact ⟨_, rfl, fun _ => rfl⟩
  | u32 value => exact ⟨_, rfl, fun _ => rfl⟩
  | u128 value => exact ⟨_, rfl, fun _ => rfl⟩

theorem createCommitChr_size (chr : Gatts.ListedChr) :
    ∃ item, createCommitChr uuidToStr chr.entry = .ok item ∧
      (layout 4 item).length = chrSize uuidToStr chr := by
  obtain ⟨uuid, huuid, hsize⟩ := createUuid_size uuidToStr chr.uuid
  refine ⟨.object (addItem "uuid" uuid ++ addInt "def_handle" (chr.valHandle - 1).toNat ++
    addInt "val_handle" chr.valHandle.toNat ++ addItem "descriptors" (.array [])), ?_, ?_⟩
  · simp only [createCommitChr, bind_ok]
    exact ⟨uuid, huuid, [], rfl, rfl⟩
  · have hnames : (quote (ascii "uuid")).length + (quote (ascii "def_handle")).length +
        (quote (ascii "val_handle")).length + (quote (ascii "descriptors")).length = 43 := rfl
    rw [Json.layout_object_length _ _ (by simp [addItem])]
    simp only [addInt_item, Json.membersSize_append, Json.membersSize_item, hsize, layout_number,
      layout_array_nil, chrSize]
    omega

theorem createCommitSvc_size (svc : Gatts.ListedSvc) :
    ∃ item, createCommitSvc uuidToStr svc.entry = .ok item ∧
      (layout 2 item).length = svcSize uuidToStr svc := by
  obtain ⟨uuid, huuid, hsize⟩ := createUuid_size uuidToStr svc.uuid
  obtain ⟨chrs, hchrs, hsizes⟩ := mapM_sizes _ _ _ _ svc.chrs (createCommitChr_size uuidToStr)
  refine ⟨.object (addItem "uuid" uuid ++ addInt "handle" 0 ++
    addItem "characteristics" (.array chrs)), ?_, ?_⟩
  · simp only [createCommitSvc, bind_ok]
    exact ⟨uuid, huuid, chrs, hchrs, rfl⟩
  · have hnames : (quote (ascii "uuid")).length + (quote (ascii "handle")).length +
        (quote (ascii "characteristics")).length = 31 := rfl
    have hzero : (decimal 0).length = 1 := rfl
    rw [Json.layout_object_length _ _ (by simp [addItem])]
    simp only [addInt_item, Json.membersSize_append, Json.membersSize_item, hsize, layout_number,
      Json.layout_array_length, hsizes, hzero, svcSize]
    omega

theorem listing_size (seq : UInt32) (svcs : List Gatts.ListedSvc) :
    ∃ root, rspEnc uuidToStr
        ⟨⟨.rsp, .commitSvcs, seq⟩, 0, .commitSvcs (svcs.map Gatts.ListedSvc.entry)⟩ = .ok root ∧
      (layout 0 root).length = listingSize uuidToStr seq svcs := by
  obtain ⟨items, hitems, hsizes⟩ := mapM_sizes _ _ _ _ svcs (createCommitSvc_size uuidToStr)
  refine ⟨.object (msgHdrEnc ⟨.rsp, .commitSvcs, seq⟩ ++ (addInt "status" 0 ++
    addItem "services" (.array items))), ?_, ?_⟩
  · refine (rspEnc_ok _ _ _).mpr ⟨_, _, rfl, ?_, rfl⟩
    simp only [commitSvcsRspEnc, bind_ok]
    exact ⟨items, hitems, rfl⟩
  · have hop : Json.membersSize 1 (addName opMap "op" MsgOp.rsp) = 19 := rfl
    have htype : Json.membersSize 1 (addName typeMap "type" MsgType.commitSvcs) = 24 := rfl
    have hnames : (quote (ascii "seq")).length + (quote (ascii "status")).length +
        (quote (ascii "services")).length = 23 := rfl
    have hzero : (decimal 0).length = 1 := rfl
    rw [Json.layout_object_length _ _ (by simp [msgHdrEnc, addInt])]
    simp only [msgHdrEnc, hop, htype, addInt_item, Json.membersSize_append, Json.membersSize_item,
      layout_number, Json.layout_array_length, hsizes, hzero, listingSize]
    omega

theorem uuidSize_pos (uuid : Uuid) : 0 < uuidSize uuidToStr uuid := by
  cases uuid with
  | u16 value => exact Json.decimal_length_pos _
  | u32 value => exact Json.decimal_length_pos _
  | u128 value => simp [uuidSize, quote]

theorem chrSize_ge (chr : Gatts.ListedChr) : 90 ≤ chrSize uuidToStr chr := by
  have huuid := uuidSize_pos uuidToStr chr.uuid
  have hdef := Json.decimal_length_pos (chr.valHandle - 1).toNat
  have hval := Json.decimal_length_pos chr.valHandle.toNat
  unfold chrSize
  omega

theorem svcSize_ge (svc : Gatts.ListedSvc) : 58 + 92 * svc.chrs.length ≤ svcSize uuidToStr svc := by
  have huuid := uuidSize_pos uuidToStr svc.uuid
  have hchrs := Json.itemsSize_ge (svc.chrs.map (chrSize uuidToStr)) 90 (by
    intro size hsize
    obtain ⟨chr, _, rfl⟩ := List.mem_map.mp hsize
    exact chrSize_ge uuidToStr chr)
  rw [List.length_map] at hchrs
  unfold svcSize
  omega

end Listing

section Known

variable (uuidToStr : Uuid → Text)

theorem mapM_ok_mem {α β : Type} (f : α → Except Fault β) (items : List α) (results : List β)
    (h : items.mapM f = .ok results) : ∀ a ∈ items, ∃ b, f a = .ok b := by
  induction items generalizing results with
  | nil => simp
  | cons first rest ih =>
      rw [List.mapM_cons] at h
      simp only [bind_ok] at h
      obtain ⟨b, hb, others, hothers, _⟩ := h
      intro a ha
      rcases List.mem_cons.mp ha with rfl | ha
      · exact ⟨b, hb⟩
      · exact ih others hothers a ha

theorem createUuid_known (uuid : UuidAny) (item : Json) (h : createUuid uuidToStr uuid = .ok item) :
    ∃ known, uuid = .known known := by
  cases uuid with
  | known known => exact ⟨known, rfl⟩
  | other type => cases h

-- Only a listing of good UUIDs can be encoded.
theorem rspEnc_known (hdr : MsgHdr) (status : Int) (svcs : List Gatts.CommitSvc) (root : Json)
    (htype : hdr.type = .commitSvcs)
    (h : rspEnc uuidToStr ⟨hdr, status, .commitSvcs svcs⟩ = .ok root) :
    ∀ svc ∈ svcs, svc.Known := by
  obtain ⟨enc, members, henc, hmembers, _⟩ := (rspEnc_ok uuidToStr _ root).mp h
  simp only [htype] at henc
  cases henc
  simp only [commitSvcsRspEnc, bind_ok] at hmembers
  obtain ⟨items, hitems, _⟩ := hmembers
  intro svc hsvc
  obtain ⟨item, hitem⟩ := mapM_ok_mem _ _ _ hitems svc hsvc
  simp only [createCommitSvc, bind_ok] at hitem
  obtain ⟨uuid, huuid, chrs, hchrs, _⟩ := hitem
  refine ⟨createUuid_known uuidToStr _ _ huuid, ?_⟩
  intro chr hchr
  obtain ⟨item, hitem⟩ := mapM_ok_mem _ _ _ hchrs chr hchr
  simp only [createCommitChr, bind_ok] at hitem
  obtain ⟨uuid, huuid, _⟩ := hitem
  exact createUuid_known uuidToStr _ _ huuid

end Known

-- A response whose text is short whatever its type is.
structure Rsp.Modest (rsp : Rsp) : Prop where
  lower : -2 ^ 31 ≤ rsp.status
  upper : rsp.status < 2 ^ 31
  msg : (errMsg rsp.body).length ≤ 64
  svcs : commitSvcsOf rsp.body = []

section Modest

theorem ascii_length (s : String) : (ascii s).length = s.length := by
  rw [ascii, List.length_map, String.length_toList]

theorem size_append {first second : Members} {m n : Nat} (hfirst : membersSize 1 first ≤ m)
    (hsecond : membersSize 1 second ≤ n) : membersSize 1 (first ++ second) ≤ m + n := by
  rw [Json.membersSize_append]
  exact Nat.add_le_add hfirst hsecond

theorem size_int (name : String) (value : Int) (hlower : -2 ^ 31 ≤ value)
    (hupper : value < 2 ^ 32) :
    membersSize 1 (addInt name value) ≤ 6 * name.length + 18 := by
  have hname := Json.quote_length_le (ascii name)
  have hvalue := Json.decimal_length_le value hlower hupper
  rw [addInt_item, Json.membersSize_item, layout_number]
  rw [ascii_length] at hname
  omega

theorem size_nat (name : String) (value : Nat) (hupper : value < 2 ^ 32) :
    membersSize 1 (addInt name value) ≤ 6 * name.length + 18 :=
  size_int name value (by omega) (by omega)

theorem size_bool (name : String) (value : Bool) :
    membersSize 1 (addBool name value) ≤ 6 * name.length + 12 := by
  have hname := Json.quote_length_le (ascii name)
  rw [ascii_length] at hname
  have hvalue : (layout 1 (Json.createBool value)).length ≤ 5 := by cases value <;> decide
  have hsize : membersSize 1 (addBool name value) =
      5 + (quote (ascii name)).length + (layout 1 (Json.createBool value)).length :=
    Json.membersSize_item 1 name (Json.createBool value)
  omega

theorem size_text (name : String) (value : Text) :
    membersSize 1 (addText name value) ≤ 6 * name.length + 6 * value.length + 9 := by
  have hname := Json.quote_length_le (ascii name)
  rw [ascii_length] at hname
  have hvalue := Json.quote_length_le value
  have hsize : membersSize 1 (addText name value) =
      5 + (quote (ascii name)).length + (quote value).length :=
    Json.membersSize_item 1 name (.string value)
  omega

theorem size_string (name value : String) :
    membersSize 1 (addString name value) ≤ 6 * name.length + 6 * value.length + 9 := by
  have h := size_text name (ascii value)
  rwa [ascii_length] at h

theorem addrStr_length (addr : Addr) : (addrStr addr).length = 17 := by
  obtain ⟨⟨bytes⟩, hbytes⟩ := addr
  match bytes, hbytes with
  | [a, b, c, d, e, f], _ => rfl

theorem size_addr (name : String) (addr : Addr) :
    membersSize 1 (addAddr name addr) ≤ 6 * name.length + 111 := by
  have h := size_text name (addrStr addr)
  rw [addrStr_length] at h
  exact h

theorem size_addrType (name : String) (addrType : UInt8) :
    membersSize 1 (addAddrType name addrType) ≤ 6 * name.length + 51 := by
  unfold addAddrType
  cases hfind : kvRevFind addrTypeMap (addrType.toNat : Int) with
  | none => exact Nat.zero_le _
  | some valstr =>
      have hshort : ∀ entry ∈ addrTypeMap, entry.1.length ≤ 7 := by decide
      obtain ⟨entry, hentry, rfl⟩ := Option.map_eq_some_iff.mp hfind
      have hlen := hshort entry (List.mem_of_find?_eq_some hentry)
      have h := size_string name entry.1
      dsimp only
      omega

theorem size_bleAddr (typeName name : String) (addr : BleAddr) :
    membersSize 1 (addBleAddr typeName name addr) ≤
      6 * typeName.length + 6 * name.length + 162 := by
  unfold addBleAddr
  by_cases hnone : addr.type ≠ BHD_ADDR_TYPE_NONE
  · rw [if_pos hnone]
    have htype := size_addrType typeName addr.type
    have haddr := size_addr name addr.val
    rw [Json.membersSize_append]
    omega
  · rw [if_neg hnone]
    exact Nat.zero_le _

theorem hexStrLoop_length_le (remLen : Nat) (dst : Text) (off : Nat) (src : List UInt8) :
    (hexStrLoop remLen dst off src).1.length ≤ dst.length + 5 * src.length := by
  induction src generalizing remLen dst off with
  | nil => exact Nat.le_refl _
  | cons byte rest ih =>
      have hpiece : ((if 0 < off then ascii ":0x" else ascii "0x") ++ hexByte byte).length ≤ 5 := by
        by_cases hoff : 0 < off <;> simp [hoff, hexByte, ascii]
      rw [hexStrLoop]
      generalize (if 0 < off then ascii ":0x" else ascii "0x") ++ hexByte byte = piece at hpiece
      have htake := List.length_take_le' (remLen - 1) piece
      split_ifs
      · simp only [List.length_append, List.length_cons]
        omega
      · have hrest := ih (remLen - piece.length) (dst ++ piece.take (remLen - 1))
          (off + piece.length)
        simp only [List.length_append, List.length_cons] at hrest ⊢
        omega

theorem size_bytes (name : String) (data : List UInt8) :
    membersSize 1 (addBytes name data) ≤ 6 * name.length + 30 * data.length + 9 := by
  have hdata := hexStrLoop_length_le (data.length * 5 + 1) [] 0 data
  have h := size_text name (hexStr (data.length * 5 + 1) data).1
  simp only [hexStr, List.length_nil, Nat.zero_add] at hdata h
  have hsize : membersSize 1 (addBytes name data) =
      membersSize 1 (addText name (hexStrLoop (data.length * 5 + 1) [] 0 data).1) := rfl
  omega

theorem size_optional {condition : Prop} [Decidable condition] {members : Members} {n : Nat}
    (h : membersSize 1 members ≤ n) :
    membersSize 1 (if condition then members else []) ≤ n := by
  by_cases hc : condition
  · rw [if_pos hc]
    exact h
  · rw [if_neg hc]
    exact Nat.zero_le _

theorem header_size (hdr : MsgHdr) : membersSize 1 (msgHdrEnc hdr) ≤ 200 := by
  obtain ⟨op, type, seq⟩ := hdr
  have hop : membersSize 1 (addName opMap "op" op) ≤ 60 := by cases op <;> decide +kernel
  have htype : membersSize 1 (addName typeMap "type" type) ≤ 60 := by cases type <;> decide +kernel
  have hseq := size_nat "seq" seq.toNat (UInt32.toNat_lt seq)
  have hname : "seq".length = 3 := rfl
  simp only [msgHdrEnc, Json.membersSize_append]
  omega

theorem status_size (rsp : Rsp) (h : rsp.Modest) :
    membersSize 1 (addInt "status" rsp.status) ≤ 54 :=
  size_int "status" rsp.status h.lower (by have := h.upper; omega)

theorem size_u16 (name : String) (value : UInt16) :
    membersSize 1 (addInt name value.toNat) ≤ 6 * name.length + 18 :=
  size_nat name value.toNat (Nat.lt_trans (UInt16.toNat_lt value) (by decide))

theorem size_u8 (name : String) (value : UInt8) :
    membersSize 1 (addInt name value.toNat) ≤ 6 * name.length + 18 :=
  size_nat name value.toNat (Nat.lt_trans (UInt8.toNat_lt value) (by decide))

theorem advDataOf_length (body : RspBody) : (advDataOf body).length ≤ 31 := by
  cases body with
  | advFields data => exact data.property
  | _ => exact Nat.zero_le _

theorem connFind_size (uuidToStr : Uuid → Text) (rsp : Rsp) (hrsp : rsp.Modest)
    (members : Members) (h : connFindRspEnc uuidToStr rsp = .ok members) :
    membersSize 1 members ≤ 6000 := by
  obtain rfl := Except.ok.inj h
  have hstatus := status_size rsp hrsp
  apply Nat.le_trans
  · repeat' apply size_append
    · exact hstatus
    · exact size_optional (size_u16 _ _)
    · exact size_u16 _ _
    · exact size_u16 _ _
    · exact size_u16 _ _
    · exact size_u8 _ _
    · exact size_u8 _ _
    · exact size_bleAddr _ _ _
    · exact size_bleAddr _ _ _
    · exact size_bleAddr _ _ _
    · exact size_bleAddr _ _ _
    · exact size_bool _ _
    · exact size_bool _ _
    · exact size_bool _ _
    · exact size_u8 _ _
  · decide

theorem members_size (type : MsgType) (enc : SubrspEnc) (henc : rspDispatchFind type = .ok enc)
    (uuidToStr : Uuid → Text) (rsp : Rsp) (hrsp : rsp.Modest) (members : Members)
    (h : enc uuidToStr rsp = .ok members) : membersSize 1 members ≤ 6000 := by
  have hstatus := status_size rsp hrsp
  cases type <;> cases henc
  case err =>
    obtain rfl := Except.ok.inj h
    have hmsg := size_string "msg" (errMsg rsp.body)
    have hname : "msg".length = 3 := rfl
    have hlen := hrsp.msg
    rw [Json.membersSize_append]
    omega
  case sync =>
    obtain rfl := Except.ok.inj h
    exact Nat.le_trans (size_bool "synced" _) (by decide)
  case genRandAddr =>
    obtain rfl := Except.ok.inj h
    exact Nat.le_trans (size_append hstatus (size_optional (size_addr "addr" _))) (by decide)
  case connFind => exact connFind_size uuidToStr rsp hrsp members h
  case reset =>
    obtain rfl := Except.ok.inj h
    exact Nat.zero_le _
  case advFields =>
    obtain rfl := Except.ok.inj h
    have hdata := size_bytes "data" (advDataOf rsp.body)
    have hname : "data".length = 4 := rfl
    have hlen := advDataOf_length rsp.body
    have hfit : membersSize 1 (addBytes "data" (advDataOf rsp.body)) ≤ 1000 := by omega
    exact Nat.le_trans (size_append hstatus (size_optional hfit)) (by decide)
  case commitSvcs =>
    simp only [commitSvcsRspEnc, hrsp.svcs] at h
    obtain rfl := Except.ok.inj h
    exact Nat.le_trans (size_append hstatus (Nat.le_refl _)) (by decide)
  case findChr =>
    obtain rfl := Except.ok.inj h
    apply Nat.le_trans (size_append (size_append hstatus (size_u16 _ _)) (size_u16 _ _))
    decide
  all_goals
    obtain rfl := Except.ok.inj h
    exact Nat.le_trans hstatus (by decide)

theorem rspEnc_short (uuidToStr : Uuid → Text) (rsp : Rsp) (hrsp : rsp.Modest) (root : Json)
    (h : rspEnc uuidToStr rsp = .ok root) : (layout 0 root).length ≤ 6202 := by
  obtain ⟨enc, members, henc, hmembers, rfl⟩ := (rspEnc_ok uuidToStr rsp root).mp h
  have hheader := header_size rsp.hdr
  have hmembers := members_size _ enc henc uuidToStr rsp hrsp members hmembers
  rw [Json.layout_object_length _ _ (by simp [msgHdrEnc, addInt]), Json.membersSize_append]
  simp only [Nat.zero_add]
  omega

end Modest

end Blehostd
