import Blehostd.Events.Messages
import Blehostd.Events.Texts
import Blehostd.Responses.Size

namespace Blehostd

open Json (layout decimal quote escape membersSize memberSize itemsSize)

-- The lists of the event are no longer than its arrays.
structure ScanEvt.Within (evt : ScanEvt) : Prop where
  data : evt.data.length ≤ BLE_HCI_MAX_ADV_DATA_LEN
  uuids16 : evt.fields.uuids16.length ≤ BLE_HS_ADV_MAX_FIELD_SZ / 2
  uuids32 : evt.fields.uuids32.length ≤ BLE_HS_ADV_MAX_FIELD_SZ / 4
  uuids128 : evt.fields.uuids128.length ≤ BLE_HS_ADV_MAX_FIELD_SZ / 16
  name : evt.fields.name.length ≤ BLE_HS_ADV_MAX_FIELD_SZ
  svcDataUuid16 : evt.fields.svcDataUuid16.length ≤ BLE_HS_ADV_MAX_FIELD_SZ
  publicTgtAddrs : evt.fields.publicTgtAddrs.length ≤ BLE_HS_ADV_MAX_FIELD_SZ / 6
  svcDataUuid32 : evt.fields.svcDataUuid32.length ≤ BLE_HS_ADV_MAX_FIELD_SZ
  svcDataUuid128 : evt.fields.svcDataUuid128.length ≤ BLE_HS_ADV_MAX_FIELD_SZ
  uri : evt.fields.uri.length ≤ BLE_HS_ADV_MAX_FIELD_SZ
  mfgData : evt.fields.mfgData.length ≤ BLE_HS_ADV_MAX_FIELD_SZ

-- What the callbacks put into the buffers of an event.
def EvtBody.Fits : EvtBody → Prop
  | .scan evt => evt.Within
  | .notifyRx evt => evt.data.length ≤ BLE_ATT_ATTR_MAX_LEN
  | .access evt => evt.data.length ≤ BLE_ATT_ATTR_MAX_LEN + 3
  | _ => True

-- Digits, 'x' and ':' are written as they are.
theorem byteText_escape (bytes : List UInt8) :
    ∀ c ∈ byteText bytes, (escape c).length = 1 := by
  have hbyte : ∀ n < 256, ((laterPiece (UInt8.ofNat n)).all fun c =>
      decide ((escape c).length = 1)) = true := by decide +kernel
  have hpiece : ∀ byte, ∀ c ∈ laterPiece byte, (escape c).length = 1 := by
    intro byte c hc
    have hall := hbyte byte.toNat byte.toNat_lt
    rw [UInt8.ofNat_toNat] at hall
    exact of_decide_eq_true (List.all_eq_true.mp hall c hc)
  intro c hc
  cases bytes with
  | nil => exact absurd hc List.not_mem_nil
  | cons byte rest =>
      rw [byteText_cons] at hc
      rcases List.mem_append.mp hc with hfirst | hlater
      · exact hpiece byte c (List.mem_cons_of_mem _ hfirst)
      · obtain ⟨piece, hmem, hc⟩ := List.mem_flatten.mp hlater
        obtain ⟨other, _, rfl⟩ := List.mem_map.mp hmem
        exact hpiece other c hc

theorem quote_length_eq (text : Text) (h : ∀ c ∈ text, (escape c).length = 1) :
    (quote text).length = text.length + 2 := by
  have hescape : (text.flatMap escape).length = text.length := by
    induction text with
    | nil => rfl
    | cons c rest ih =>
        have hc := h c List.mem_cons_self
        have hrest := ih fun other hother => h other (List.mem_cons_of_mem _ hother)
        simp only [List.flatMap_cons, List.length_append, List.length_cons]
        omega
  simp only [quote, List.cons_append, List.length_cons, List.length_append, List.length_nil]
  omega

section Sizes

theorem size_hexStr (name : String) (maxDstLen : Nat) (bytes : List UInt8)
    (hroom : 5 * bytes.length ≤ maxDstLen) :
    membersSize 1 (addText name (hexStr maxDstLen bytes).1) ≤
      6 * name.length + 5 * bytes.length + 9 := by
  have hname := Json.quote_length_le (ascii name)
  rw [ascii_length] at hname
  have hvalue := quote_length_eq (byteText bytes) (byteText_escape bytes)
  rw [byteText_length] at hvalue
  have hsize : membersSize 1 (addText name (byteText bytes)) =
      5 + (quote (ascii name)).length + (quote (byteText bytes)).length :=
    Json.membersSize_item 1 name (.string (byteText bytes))
  rw [hexStr_complete maxDstLen bytes hroom, hsize]
  omega

theorem size_byteString (name : String) (bytes : List UInt8) (limit : Nat)
    (hlimit : bytes.length ≤ limit) :
    membersSize 1 (addBytes name bytes) ≤ 6 * name.length + 5 * limit + 9 := by
  have h : membersSize 1 (addBytes name bytes) ≤ 6 * name.length + 5 * bytes.length + 9 :=
    size_hexStr name (bytes.length * 5 + 1) bytes (by omega)
  omega

theorem size_field (name : String) (bytes : List UInt8) (limit : Nat)
    (hlimit : bytes.length ≤ limit) :
    membersSize 1 (addField name bytes) ≤ 6 * name.length + 6 * limit + 9 := by
  have h := size_text name (bytes.takeWhile (· ≠ 0))
  have htake := (List.takeWhile_sublist (p := fun c : UInt8 => decide (c ≠ 0)) (l := bytes)).length_le
  unfold addField
  omega

theorem size_kv (map : List (String × Int)) (name : String) (val : UInt8) (limit : Nat)
    (hmap : ∀ entry ∈ map, entry.1.length ≤ limit) :
    membersSize 1 (addKv map name val) ≤ 6 * name.length + 6 * limit + 9 := by
  unfold addKv
  cases hfind : kvRevFind map (val.toNat : Int) with
  | none => exact Nat.zero_le _
  | some valstr =>
      obtain ⟨entry, hentry, rfl⟩ := Option.map_eq_some_iff.mp hfind
      have hlen := hmap entry (List.mem_of_find?_eq_some hentry)
      have h := size_string name entry.1
      dsimp only
      omega

theorem itemsSize_le (sizes : List Nat) (size : Nat) (h : ∀ other ∈ sizes, other ≤ size) :
    itemsSize sizes ≤ (size + 2) * sizes.length + 2 := by
  by_cases hnil : sizes = []
  · simp [hnil, itemsSize]
  · rw [itemsSize, if_neg hnil]
    clear hnil
    induction sizes with
    | nil => exact Nat.zero_le _
    | cons other rest ih =>
        have hother := h other List.mem_cons_self
        have hrest := ih fun a ha => h a (List.mem_cons_of_mem _ ha)
        simp only [List.length_cons, List.map_cons, List.sum_cons, Nat.mul_add, Nat.mul_one]
        omega

theorem size_genArr {α : Type} (name : String) (vals : List α) (create : α → Json)
    (size limit : Nat) (hsize : ∀ val, (layout 2 (create val)).length ≤ size)
    (hlimit : vals.length ≤ limit) :
    membersSize 1 (addGenArr name vals create) ≤ 6 * name.length + (size + 2) * limit + 9 := by
  have hname := Json.quote_length_le (ascii name)
  rw [ascii_length] at hname
  have hitems := itemsSize_le ((vals.map create).map fun item => (layout 2 item).length) size (by
    intro other hother
    obtain ⟨item, hitem, rfl⟩ := List.mem_map.mp hother
    obtain ⟨val, _, rfl⟩ := List.mem_map.mp hitem
    exact hsize val)
  rw [List.length_map, List.length_map] at hitems
  have hmul := Nat.mul_le_mul_left (size + 2) hlimit
  have harray : (layout 1 (.array (vals.map create))).length =
      itemsSize ((vals.map create).map fun item => (layout 2 item).length) :=
    Json.layout_array_length 1 (vals.map create)
  rw [addGenArr, Json.membersSize_item, harray]
  omega

theorem layout_nat_le (depth n : Nat) (hn : n < 2 ^ 32) :
    (layout depth (createNumber n)).length ≤ 11 :=
  Json.decimal_length_le n (by omega) (by omega)

theorem layout_text_le (depth : Nat) (text : Text) (limit : Nat) (hlimit : text.length ≤ limit) :
    (layout depth (.string text)).length ≤ 6 * limit + 2 := by
  have h := Json.quote_length_le text
  have hlayout : layout depth (.string text) = quote text := rfl
  rw [hlayout]
  omega

-- The object of a discovery event, two members deep.
theorem size_object (name : String) (members : Members) (limit : Nat) (hne : members ≠ [])
    (hlimit : membersSize 2 members ≤ limit) :
    membersSize 1 (addItem name (.object members)) ≤ 6 * name.length + limit + 10 := by
  have hname := Json.quote_length_le (ascii name)
  rw [ascii_length] at hname
  have hobject : (layout 1 (.object members)).length = 3 + membersSize 2 members :=
    Json.layout_object_length 1 members hne
  rw [Json.membersSize_item, hobject]
  omega

theorem size_inner_u16 (name : String) (value : UInt16) :
    membersSize 2 (addInt name value.toNat) ≤ 6 * name.length + 19 := by
  have h := size_u16 name value
  rw [addInt_item, Json.membersSize_item, layout_number] at h ⊢
  omega

theorem size_inner_u8 (name : String) (value : UInt8) :
    membersSize 2 (addInt name value.toNat) ≤ 6 * name.length + 19 := by
  have h := size_u8 name value
  rw [addInt_item, Json.membersSize_item, layout_number] at h ⊢
  omega

theorem size_inner_text (name : String) (text : Text) (limit : Nat)
    (hlimit : text.length ≤ limit) :
    membersSize 2 (addText name text) ≤ 6 * name.length + 6 * limit + 10 := by
  have hname := Json.quote_length_le (ascii name)
  rw [ascii_length] at hname
  have hvalue := layout_text_le 2 text limit hlimit
  have hsize : membersSize 2 (addText name text) =
      6 + (quote (ascii name)).length + (layout 2 (.string text)).length :=
    Json.membersSize_item 2 name (.string text)
  omega

theorem size_i32 (name : String) (value : Int32) :
    membersSize 1 (addInt name value.toInt) ≤ 6 * name.length + 18 := by
  have hlower := Int32.le_toInt value
  have hupper := Int32.toInt_lt value
  exact size_int name value.toInt hlower (by omega)

theorem size_i8 (name : String) (value : Int8) :
    membersSize 1 (addInt name value.toInt) ≤ 6 * name.length + 18 := by
  have hlower := Int8.le_toInt value
  have hupper := Int8.toInt_lt value
  exact size_int name value.toInt (by omega) (by omega)

theorem size_u32 (name : String) (value : UInt32) :
    membersSize 1 (addInt name value.toNat) ≤ 6 * name.length + 18 :=
  size_nat name value.toNat (UInt32.toNat_lt value)

theorem inner_append {first second : Members} {m n : Nat} (hfirst : membersSize 2 first ≤ m)
    (hsecond : membersSize 2 second ≤ n) : membersSize 2 (first ++ second) ≤ m + n := by
  rw [Json.membersSize_append]
  exact Nat.add_le_add hfirst hsecond

end Sizes

section Events

variable (uuidToStr : Uuid → Text)

theorem discSvcEvt_size (hstr : ∀ uuid, (uuidToStr uuid).length ≤ 36) (evt : DiscSvcEvt) :
    membersSize 1 (discSvcEvtEnc uuidToStr evt) ≤ 1000 := by
  have hservice : membersSize 1 (addItem "service" (.object (
      addInt "start_handle" evt.svc.startHandle.toNat ++
      addInt "end_handle" evt.svc.endHandle.toNat ++
      addText "uuid" (uuidToStr evt.svc.uuid)))) ≤ 600 := by
    apply Nat.le_trans
    · apply size_object
      · simp [addInt]
      · apply inner_append
        · exact inner_append (size_inner_u16 _ _) (size_inner_u16 _ _)
        · exact size_inner_text _ _ 36 (hstr _)
    · decide
  apply Nat.le_trans
  · apply size_append
    · exact size_append (size_u16 _ _) (size_i32 _ _)
    · exact size_optional hservice
  · decide

theorem discChrEvt_size (hstr : ∀ uuid, (uuidToStr uuid).length ≤ 36) (evt : DiscChrEvt) :
    membersSize 1 (discChrEvtEnc uuidToStr evt) ≤ 1000 := by
  have hchr : membersSize 1 (addItem "characteristic" (.object (
      addInt "def_handle" evt.chr.defHandle.toNat ++
      addInt "val_handle" evt.chr.valHandle.toNat ++
      addInt "properties" evt.chr.properties.toNat ++
      addText "uuid" (uuidToStr evt.chr.uuid)))) ≤ 700 := by
    apply Nat.le_trans
    · apply size_object
      · simp [addInt]
      · apply inner_append
        · apply inner_append
          · exact inner_append (size_inner_u16 _ _) (size_inner_u16 _ _)
          · exact size_inner_u8 _ _
        · exact size_inner_text _ _ 36 (hstr _)
    · decide
  apply Nat.le_trans
  · apply size_append
    · exact size_append (size_u16 _ _) (size_i32 _ _)
    · exact size_optional hchr
  · decide

theorem discDscEvt_size (hstr : ∀ uuid, (uuidToStr uuid).length ≤ 36) (evt : DiscDscEvt) :
    membersSize 1 (discDscEvtEnc uuidToStr evt) ≤ 1000 := by
  have hdsc : membersSize 1 (addItem "descriptor" (.object (
      addInt "handle" evt.dsc.handle.toNat ++
      addText "uuid" (uuidToStr evt.dsc.uuid)))) ≤ 500 := by
    apply Nat.le_trans
    · apply size_object
      · simp [addInt]
      · exact inner_append (size_inner_u16 _ _) (size_inner_text _ _ 36 (hstr _))
    · decide
  apply Nat.le_trans
  · apply size_append
    · exact size_append (size_append (size_u16 _ _) (size_i32 _ _)) (size_u16 _ _)
    · exact size_optional hdsc
  · decide

theorem connDesc_size (desc : ConnFindRsp) : membersSize 1 (connDescEnc desc) ≤ 2000 := by
  apply Nat.le_trans
  · repeat' apply size_append
    · exact size_optional (size_u16 _ _)
    · exact size_bleAddr _ _ _
    · exact size_bleAddr _ _ _
    · exact size_bleAddr _ _ _
    · exact size_bleAddr _ _ _
  · decide

theorem scanEvt_size (hstr : ∀ uuid, (uuidToStr uuid).length ≤ 36) (evt : ScanEvt)
    (hevt : evt.Within) : membersSize 1 (scanEvtEnc uuidToStr evt) ≤ 6000 := by
  apply Nat.le_trans
  · unfold scanEvtEnc
    repeat' apply size_append
    · exact size_kv advEventTypeMap _ _ 13 (by decide)
    · exact size_addrType _ _
    · exact size_addr _ _
    · exact size_i8 _ _
    · exact size_optional (size_byteString _ _ _ hevt.data)
    · exact size_optional (size_append (size_addrType _ _) (size_addr _ _))
    · exact size_optional (size_u8 _ _)
    · exact size_optional (size_append
        (size_genArr _ _ _ 11 _ (fun val => layout_nat_le 2 val.toNat (by
          have := val.toNat_lt
          omega)) hevt.uuids16) (size_bool _ _))
    · exact size_optional (size_append
        (size_genArr _ _ _ 11 _ (fun val => layout_nat_le 2 val.toNat val.toNat_lt) hevt.uuids32)
        (size_bool _ _))
    · exact size_optional (size_append
        (size_genArr _ _ _ 218 _ (fun val => layout_text_le 2 _ 36 (hstr _)) hevt.uuids128)
        (size_bool _ _))
    · exact size_optional (size_append (size_field _ _ _ hevt.name) (size_bool _ _))
    · exact size_optional (size_i8 _ _)
    · exact size_optional (size_append (size_u16 _ _) (size_u16 _ _))
    · exact size_optional (size_byteString _ _ _ hevt.svcDataUuid16)
    · exact size_optional (size_genArr _ _ _ 104 _
        (fun val => layout_text_le 2 _ 17 (Nat.le_of_eq (addrStr_length val)))
        hevt.publicTgtAddrs)
    · exact size_optional (size_u16 _ _)
    · exact size_optional (size_u16 _ _)
    · exact size_optional (size_byteString _ _ _ hevt.svcDataUuid32)
    · exact size_optional (size_byteString _ _ _ hevt.svcDataUuid128)
    · exact size_optional (size_field _ _ _ hevt.uri)
    · exact size_optional (size_byteString _ _ _ hevt.mfgData)
  · decide

theorem accessEvt_size (evt : AccessEvt) (hevt : evt.data.length ≤ BLE_ATT_ATTR_MAX_LEN + 3) :
    membersSize 1 (accessEvtEnc evt) ≤ 3000 := by
  apply Nat.le_trans
  · repeat' apply size_append
    · exact size_kv gattAccessOpMap _ _ 9 (by decide)
    · exact size_u16 _ _
    · exact size_u16 _ _
    · exact size_byteString _ _ _ hevt
  · decide

theorem notifyRxEvt_size (evt : NotifyRxEvt) (hevt : evt.data.length ≤ BLE_ATT_ATTR_MAX_LEN) :
    membersSize 1 (notifyRxEvtEnc evt) ≤ 3000 := by
  have hdata : membersSize 1 (addText "data" (hexStr (BLE_ATT_ATTR_MAX_LEN * 5) evt.data).1) ≤
      2600 := by
    have hlimit : BLE_ATT_ATTR_MAX_LEN = 512 := rfl
    have hname : "data".length = 4 := rfl
    have h := size_hexStr "data" (BLE_ATT_ATTR_MAX_LEN * 5) evt.data (by omega)
    omega
  apply Nat.le_trans
  · repeat' apply size_append
    · exact size_u16 _ _
    · exact size_u16 _ _
    · exact size_bool _ _
    · exact hdata
  · decide

theorem writeAckEvt_size (evt : WriteAckEvt) : membersSize 1 (writeAckEvtEnc evt) ≤ 1000 := by
  apply Nat.le_trans
  · exact size_append (size_append (size_u16 _ _) (size_u16 _ _)) (size_i32 _ _)
  · decide

theorem mtuChangeEvt_size (evt : MtuChangeEvt) :
    membersSize 1 (mtuChangeEvtEnc evt) ≤ 1000 := by
  apply Nat.le_trans
  · exact size_append (size_append (size_u16 _ _) (size_u16 _ _)) (size_i32 _ _)
  · decide

theorem passkeyEvt_size (evt : PasskeyEvt) : membersSize 1 (passkeyEvtEnc evt) ≤ 1000 := by
  apply Nat.le_trans
  · repeat' apply size_append
    · exact size_u16 _ _
    · exact size_kv smPasskeyActionMap _ _ 6 (by decide)
    · exact size_optional (size_u32 _ _)
  · decide

theorem body_size (hstr : ∀ uuid, (uuidToStr uuid).length ≤ 36) (body : EvtBody)
    (hfits : body.Fits) : ∃ members, evtDispatchFind uuidToStr body.type body = .ok members ∧
      membersSize 1 members ≤ 6000 := by
  cases body with
  | sync synced => exact ⟨_, rfl, Nat.le_trans (size_bool "synced" _) (by decide)⟩
  | connect evt =>
      refine ⟨_, rfl, ?_⟩
      exact Nat.le_trans (size_append (size_i32 _ _) (size_optional (size_u16 _ _))) (by decide)
  | disconnect evt =>
      refine ⟨_, rfl, ?_⟩
      exact Nat.le_trans (size_append (size_i32 _ _) (connDesc_size evt.desc)) (by decide)
  | discSvc evt => exact ⟨_, rfl, Nat.le_trans (discSvcEvt_size uuidToStr hstr evt) (by decide)⟩
  | discChr evt => exact ⟨_, rfl, Nat.le_trans (discChrEvt_size uuidToStr hstr evt) (by decide)⟩
  | discDsc evt => exact ⟨_, rfl, Nat.le_trans (discDscEvt_size uuidToStr hstr evt) (by decide)⟩
  | writeAck evt => exact ⟨_, rfl, Nat.le_trans (writeAckEvt_size evt) (by decide)⟩
  | notifyRx evt => exact ⟨_, rfl, Nat.le_trans (notifyRxEvt_size evt hfits) (by decide)⟩
  | mtuChange evt => exact ⟨_, rfl, Nat.le_trans (mtuChangeEvt_size evt) (by decide)⟩
  | scan evt => exact ⟨_, rfl, scanEvt_size uuidToStr hstr evt hfits⟩
  | zero => exact ⟨_, rfl, Nat.zero_le _⟩
  | advComplete reason => exact ⟨_, rfl, Nat.le_trans (size_i32 "reason" _) (by decide)⟩
  | encChange evt =>
      exact ⟨_, rfl, Nat.le_trans (size_append (size_u16 _ _) (size_i32 _ _)) (by decide)⟩
  | reset reason => exact ⟨_, rfl, Nat.le_trans (size_i32 "reason" _) (by decide)⟩
  | access evt => exact ⟨_, rfl, Nat.le_trans (accessEvt_size evt hfits) (by decide)⟩
  | passkey evt => exact ⟨_, rfl, Nat.le_trans (passkeyEvt_size evt) (by decide)⟩

theorem evtEnc_short (hstr : ∀ uuid, (uuidToStr uuid).length ≤ 36) (evt : Evt)
    (htype : evt.hdr.type = evt.body.type) (hfits : evt.body.Fits) :
    ∃ members, evtEnc uuidToStr evt = .ok (.object (msgHdrEnc evt.hdr ++ members)) ∧
      (layout 0 (.object (msgHdrEnc evt.hdr ++ members))).length ≤ 6202 := by
  obtain ⟨members, hmembers, hsize⟩ := body_size uuidToStr hstr evt.body hfits
  have hheader := header_size evt.hdr
  refine ⟨members, ?_, ?_⟩
  · simp only [evtEnc, htype, hmembers, bind, Except.bind]
  · rw [Json.layout_object_length _ _ (by simp [msgHdrEnc, addInt]), Json.membersSize_append]
    simp only [Nat.zero_add]
    omega

end Events

end Blehostd
