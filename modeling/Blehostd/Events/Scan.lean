import Blehostd.Events
import Blehostd.Events.Texts
import Mathlib.Data.List.TakeWhile

namespace Blehostd

-- The members of the event that describe advertising fields, under the keys
-- without "data_".
def fieldMembers (members : Members) : Members :=
  members.filterMap fun member =>
    if (ascii "data_").isPrefixOf member.1 then some (member.1.drop 5, member.2) else none

-- The names of the members that an object may have, each with its value.
def tableMembers (table : List (String × Option Json)) : Members :=
  table.flatMap fun entry => (entry.2.map fun item => (ascii entry.1, item)).toList

def foldedKey (name : String) : Text :=
  (ascii name).map tolower

def given (present : Prop) [Decidable present] (item : Json) : Option Json :=
  if present then some item else none

def fieldTable (uuidToStr : Uuid → Text) (f : AdvFieldsReq) : List (String × Option Json) :=
  [("flags", given (f.flags ≠ 0) (.number f.flags.toNat))] ++
  [("uuids16", given (f.uuids16.length ≠ 0)
      (.array (f.uuids16.map fun uuid => createNumber uuid.toNat))),
    ("uuids16_is_complete", given (f.uuids16.length ≠ 0) (Json.createBool f.uuids16IsComplete))] ++
  [("uuids32", given (f.uuids32.length ≠ 0)
      (.array (f.uuids32.map fun uuid => createNumber uuid.toNat))),
    ("uuids32_is_complete", given (f.uuids32.length ≠ 0) (Json.createBool f.uuids32IsComplete))] ++
  [("uuids128", given (f.uuids128.length ≠ 0)
      (.array (f.uuids128.map (createUuid128Bytes uuidToStr)))),
    ("uuids128_is_complete", given (f.uuids128.length ≠ 0)
      (Json.createBool f.uuids128IsComplete))] ++
  [("name", given (f.name.length ≠ 0) (.string (f.name.takeWhile (· ≠ 0)))),
    ("name_is_complete", given (f.name.length ≠ 0) (Json.createBool f.nameIsComplete))] ++
  [("tx_pwr_lvl", given (f.txPwrLvlIsPresent = true) (.number f.txPwrLvl.toInt))] ++
  [("slave_itvl_min", given (f.slaveItvlRangeIsPresent = true) (.number f.slaveItvlMin.toNat)),
    ("slave_itvl_max", given (f.slaveItvlRangeIsPresent = true) (.number f.slaveItvlMax.toNat))] ++
  [("svc_data_uuid16", given (f.svcDataUuid16.length ≠ 0) (createByteString f.svcDataUuid16))] ++
  [("public_tgt_addrs", given (f.publicTgtAddrs.length ≠ 0)
      (.array (f.publicTgtAddrs.map createAddr)))] ++
  [("appearance", given (f.appearanceIsPresent = true) (.number f.appearance.toNat))] ++
  [("adv_itvl", given (f.advItvlIsPresent = true) (.number f.advItvl.toNat))] ++
  [("svc_data_uuid32", given (f.svcDataUuid32.length ≠ 0) (createByteString f.svcDataUuid32))] ++
  [("svc_data_uuid128", given (f.svcDataUuid128.length ≠ 0) (createByteString f.svcDataUuid128))] ++
  [("uri", given (f.uri.length ≠ 0) (.string (f.uri.takeWhile (· ≠ 0))))] ++
  [("mfg_data", given (f.mfgData.length ≠ 0) (createByteString f.mfgData))]

theorem fieldMembers_append (a b : Members) :
    fieldMembers (a ++ b) = fieldMembers a ++ fieldMembers b :=
  List.filterMap_append

theorem tableMembers_append (a b : List (String × Option Json)) :
    tableMembers (a ++ b) = tableMembers a ++ tableMembers b :=
  List.flatMap_append

theorem fieldMembers_eventType (eventType : UInt8) :
    fieldMembers (addAdvEventType "event_type" eventType) = [] := by
  unfold addAdvEventType
  cases kvRevFind advEventTypeMap eventType.toNat <;> rfl

theorem fieldMembers_addrType (name : String) (addrType : UInt8)
    (h : (ascii "data_").isPrefixOf (ascii name) = false) :
    fieldMembers (addAddrType name addrType) = [] := by
  unfold addAddrType
  cases kvRevFind addrTypeMap addrType.toNat with
  | none => rfl
  | some valstr =>
      simp only [fieldMembers, addString, addText, List.filterMap_cons, h, Bool.false_eq_true,
        if_false, List.filterMap_nil]

-- What stands in front of the advertising fields.
theorem fieldMembers_report (evt : ScanEvt) :
    fieldMembers (addAdvEventType "event_type" evt.eventType ++
      addAddrType "addr_type" evt.addr.type ++
      addAddr "addr" evt.addr.val ++
      addInt "rssi" evt.rssi.toInt ++
      (if 0 < evt.data.length then addBytes "data" evt.data else []) ++
      (if evt.directAddr ≠ BleAddr.zero then
        addAddrType "direct_addr_type" evt.directAddr.type ++
        addAddr "direct_addr" evt.directAddr.val
      else [])) = [] := by
  have hdata :
      fieldMembers (if 0 < evt.data.length then addBytes "data" evt.data else []) = [] := by
    split_ifs <;> rfl
  have hdirect : fieldMembers (if evt.directAddr ≠ BleAddr.zero then
      addAddrType "direct_addr_type" evt.directAddr.type ++
      addAddr "direct_addr" evt.directAddr.val else []) = [] := by
    split_ifs
    · rw [fieldMembers_append, fieldMembers_addrType _ _ rfl]
      rfl
    · rfl
  have haddrType := fieldMembers_addrType "addr_type" evt.addr.type rfl
  simp only [fieldMembers_append, fieldMembers_eventType, haddrType, hdata, hdirect,
    List.append_nil]
  rfl

-- A member that is added when its field is present.
theorem fieldMembers_one (present : Prop) [Decidable present] (members : Members) (name : String)
    (item : Json) (h : fieldMembers members = addItem name item) :
    fieldMembers (if present then members else []) = tableMembers [(name, given present item)] := by
  unfold given
  split_ifs
  · rw [h]
    rfl
  · rfl

-- Two members that are added together.
theorem fieldMembers_two (present : Prop) [Decidable present] (members : Members)
    (first second : String) (item other : Json)
    (h : fieldMembers members = addItem first item ++ addItem second other) :
    fieldMembers (if present then members else []) =
      tableMembers [(first, given present item), (second, given present other)] := by
  unfold given
  split_ifs
  · rw [h]
    rfl
  · rfl

theorem append_congr {a a' b b' : Members} (ha : a = a') (hb : b = b') : a ++ b = a' ++ b' := by
  rw [ha, hb]

theorem fieldMembers_scanEvt (uuidToStr : Uuid → Text) (evt : ScanEvt) :
    fieldMembers (scanEvtEnc uuidToStr evt) = tableMembers (fieldTable uuidToStr evt.fields) := by
  unfold scanEvtEnc fieldTable
  extract_lets f
  -- The groups from the last to the second one.
  iterate 14
    rw [fieldMembers_append, tableMembers_append]
    refine append_congr ?_ (by
      first
        | exact fieldMembers_one _ _ _ _ rfl
        | exact fieldMembers_two _ _ _ _ _ _ rfl)
  rw [fieldMembers_append, fieldMembers_report, List.nil_append]
  exact fieldMembers_one _ _ _ _ rfl

theorem find_absent (table : List (String × Option Json)) (name : String)
    (h : foldedKey name ∉ table.map fun entry => foldedKey entry.1) :
    (tableMembers table).find? (fun member => Json.sameKey member.1 name) = none := by
  rw [List.find?_eq_none]
  intro member hmem hsame
  obtain ⟨entry, hentry, hmember⟩ := List.mem_flatMap.mp hmem
  obtain ⟨item, _, hitem⟩ := Option.map_eq_some_iff.mp (Option.mem_toList.mp hmember)
  have hkey : foldedKey entry.1 = foldedKey name := by
    rw [← hitem] at hsame
    exact of_decide_eq_true hsame
  apply h
  rw [← hkey]
  exact List.mem_map_of_mem hentry

-- No two names differ in the case of their letters only.
theorem getObjectItem_table (table : List (String × Option Json)) (name : String)
    (item : Option Json) (hdistinct : (table.map fun entry => foldedKey entry.1).Nodup)
    (hmem : (name, item) ∈ table) :
    (Json.object (tableMembers table)).getObjectItem name = item := by
  induction table with
  | nil => exact absurd hmem List.not_mem_nil
  | cons entry rest ih =>
      rw [List.map_cons, List.nodup_cons] at hdistinct
      obtain ⟨hnew, hrest⟩ := hdistinct
      have hsplit : tableMembers (entry :: rest) = tableMembers [entry] ++ tableMembers rest :=
        tableMembers_append [entry] rest
      rw [hsplit, Json.getObjectItem, List.find?_append]
      rcases List.mem_cons.mp hmem with hhead | htail
      · subst hhead
        rw [find_absent rest name hnew, Option.or_none]
        cases item with
        | none => rfl
        | some json => simp [tableMembers, Json.sameKey]
      · have hother : foldedKey name ∉ [entry].map fun entry => foldedKey entry.1 := by
          intro hsame
          rw [List.map_singleton, List.mem_singleton] at hsame
          exact hnew (List.mem_map.mpr ⟨_, htail, hsame⟩)
        rw [find_absent [entry] name hother, Option.none_or]
        exact ih hrest htail

def fieldNames : List String :=
  ["flags", "uuids16", "uuids16_is_complete", "uuids32", "uuids32_is_complete", "uuids128",
    "uuids128_is_complete", "name", "name_is_complete", "tx_pwr_lvl", "slave_itvl_min",
    "slave_itvl_max", "svc_data_uuid16", "public_tgt_addrs", "appearance", "adv_itvl",
    "svc_data_uuid32", "svc_data_uuid128", "uri", "mfg_data"]

theorem fieldTable_distinct (uuidToStr : Uuid → Text) (f : AdvFieldsReq) :
    ((fieldTable uuidToStr f).map fun entry => foldedKey entry.1).Nodup := by
  have hnames : (fieldTable uuidToStr f).map Prod.fst = fieldNames := by
    simp only [fieldTable, List.map_cons, List.map_nil, List.cons_append,
      List.nil_append, fieldNames]
  have hdistinct : (fieldNames.map foldedKey).Nodup := by decide +kernel
  rw [← hnames, List.map_map] at hdistinct
  exact hdistinct

theorem field_item (uuidToStr : Uuid → Text) (f : AdvFieldsReq) (name : String)
    (item : Option Json) (hmem : (name, item) ∈ fieldTable uuidToStr f) :
    (Json.object (tableMembers (fieldTable uuidToStr f))).getObjectItem name = item :=
  getObjectItem_table _ name item (fieldTable_distinct uuidToStr f) hmem

section Readers

variable {ε α : Type}

theorem want_ok (parent : Json) (name : String) (f : Json → String → Except ErrCode α)
    (exit : ErrCode → ε) (a : α) (h : f parent name = .ok a) :
    (want parent name f exit).result = .ok (some a) := by
  simp only [want, Decoder.look, h]

theorem want_list (parent : Json) (name : String) (f : Json → String → Except ErrCode (List α))
    (exit : ErrCode → ε) (present : Prop) [Decidable present] (items : List α)
    (h : f parent name = if present then .ok items else .error .enoent)
    (hempty : ¬present → items = []) :
    ∃ found, (want parent name f exit).result = .ok found ∧ found.getD [] = items := by
  by_cases hpresent : present
  · rw [if_pos hpresent] at h
    exact ⟨some items, want_ok _ _ _ _ _ h, rfl⟩
  · rw [if_neg hpresent] at h
    exact ⟨none, want_absent _ _ _ _ h, (hempty hpresent).symm⟩

theorem nil_of_absent (vals : List α) (h : ¬vals.length ≠ 0) : vals = [] :=
  List.eq_nil_of_length_eq_zero (not_not.mp h)

theorem member_given (process : Json → Except ErrCode α) (parent : Json) (name : String)
    (present : Prop) [Decidable present] (item : Json)
    (h : parent.getObjectItem name = given present item) :
    member process parent name = if present then process item else .error .enoent := by
  unfold member
  rw [h]
  unfold given
  split_ifs <;> rfl

theorem jsonIntBounds_given (minval maxval : Int) (parent : Json) (name : String) (present : Prop)
    [Decidable present] (n : Int) (h : parent.getObjectItem name = given present (.number n))
    (hmin : minval ≤ n) (hmax : n ≤ maxval) :
    jsonIntBounds minval maxval parent name =
      if present then (n, none) else (0, some .enoent) := by
  have hbounds : ¬(n < minval ∨ maxval < n) := by omega
  unfold jsonIntBounds
  rw [h]
  unfold given
  split_ifs
  · simp only [processJsonIntBounds, processJsonInt, ne_eq, not_true_eq_false, hbounds, if_false]
  · rfl

-- An array with at most one element. An element that is refused is passed over.
theorem jsonArrGen_given (maxElems : Nat) (hmax : 0 < maxElems)
    (process : Json → Except ErrCode α) (parent : Json) (name : String) (present : Prop)
    [Decidable present] (items : List Json) (hitems : items.length ≤ 1)
    (h : parent.getObjectItem name = given present (.array items)) :
    jsonArrGen maxElems process parent name =
      if present then .ok (items.filterMap fun item => (process item).toOption)
      else .error .enoent := by
  have hroom : ¬maxElems ≤ 0 := by omega
  have harr : jsonArr parent name = if present then .ok items else .error .enoent :=
    member_given _ parent name present _ h
  unfold jsonArrGen
  rw [harr]
  by_cases hpresent : present
  · simp only [hpresent, if_true, bind, Except.bind]
    match items, hitems with
    | [], _ => rfl
    | [item], _ =>
        cases hitem : process item with
        | error e =>
            simp [arrLoop, arrFn, hroom, hitem, checked, Except.toOption]
        | ok elem =>
            simp [arrLoop, arrFn, hroom, hitem, checked, Except.toOption]
  · simp only [hpresent, if_false, bind, Except.bind]

-- The elements of a list that are read back.
theorem jsonArrGen_list (maxElems : Nat) (hmax : 0 < maxElems)
    (process : Json → Except ErrCode α) {β : Type} (create : β → Json) (read : β → Option α)
    (hread : ∀ val, (process (create val)).toOption = read val) (parent : Json) (name : String)
    (vals : List β) (hvals : vals.length ≤ 1)
    (h : parent.getObjectItem name = given (vals.length ≠ 0) (.array (vals.map create))) :
    jsonArrGen maxElems process parent name =
      if vals.length ≠ 0 then .ok (vals.filterMap read) else .error .enoent := by
  rw [jsonArrGen_given maxElems hmax process parent name _ _ (by simpa using hvals) h,
    List.filterMap_map]
  simp only [Function.comp_def, hread]

end Readers

section Fields

variable (r : Req) (name : String)

theorem advFlagsDec_given (flags : UInt8)
    (h : r.parent.getObjectItem "flags" = given (flags ≠ 0) (.number flags.toNat)) :
    (advFlagsDec r).result = .ok flags := by
  have hbound := flags.toNat_lt
  have hread := jsonIntBounds_given 0 UINT8_MAX _ _ _ _ h (by omega) (by unfold UINT8_MAX; omega)
  unfold advFlagsDec
  by_cases hflags : flags = 0
  · simp only [hflags, ne_eq, not_true_eq_false, if_false] at hread
    have hint : jsonInt 0 UINT8_MAX r.parent "flags" = .error .enoent := by
      simp only [jsonInt, hread, checked]
    rw [Decoder.result_bind _ _ _ (want_absent _ _ _ _ hint), hflags]
    rfl
  · simp only [hflags, ne_eq, not_false_eq_true, if_true] at hread
    have hint : jsonInt 0 UINT8_MAX r.parent "flags" = .ok flags.toNat := by
      simp only [jsonInt, hread, checked]
    rw [Decoder.result_bind _ _ _ (want_ok _ _ _ _ _ hint)]
    simp only [ofInt_byte, hflags, if_false]
    rfl

theorem advFlagDec_given (exit : ErrCode → Exit) (present : Prop) [Decidable present] (value : Bool)
    (h : r.parent.getObjectItem name = given present (Json.createBool value)) :
    ∃ flag, (advFlagDec r name exit).result = .ok flag ∧ (present → flag = value) := by
  unfold advFlagDec wantPair jsonBool
  rw [h]
  unfold given
  split_ifs with hpresent
  · refine ⟨value, ?_, fun _ => rfl⟩
    cases value <;> rfl
  · exact ⟨_, rfl, fun h => absurd h hpresent⟩

theorem advTextDec_given (msg : String) (text : List UInt8) (hnul : 0 ∉ text)
    (hfits : text.length ≤ BLE_HS_ADV_MAX_FIELD_SZ)
    (h : r.parent.getObjectItem name =
      given (text.length ≠ 0) (.string (text.takeWhile (· ≠ 0)))) :
    (advTextDec r name msg).result = .ok text := by
  have hwhole : text.takeWhile (· ≠ 0) = text := by
    rw [List.takeWhile_eq_self_iff]
    intro c hc
    simpa using fun hzero : c = 0 => hnul (hzero ▸ hc)
  rw [hwhole] at h
  have hread : jsonString r.parent name = if text.length ≠ 0 then .ok text else .error .enoent :=
    member_given _ _ _ _ _ h
  unfold advTextDec
  by_cases htext : text.length = 0
  · rw [if_neg (not_not_intro htext)] at hread
    rw [Decoder.result_bind _ _ _ (want_absent _ _ _ _ hread),
      List.eq_nil_of_length_eq_zero htext]
    rfl
  · rw [if_pos htext] at hread
    have hlength : ¬BLE_HS_ADV_MAX_FIELD_SZ < text.length := by omega
    rw [Decoder.result_bind _ _ _ (want_ok _ _ _ _ _ hread)]
    simp only [hlength, if_false]
    rfl

theorem advBytesDec_given (msg : String) (bytes : List UInt8)
    (hfits : bytes.length ≤ BLE_HS_ADV_MAX_FIELD_SZ)
    (h : r.parent.getObjectItem name = given (bytes.length ≠ 0) (createByteString bytes)) :
    (advBytesDec r name msg).result = .ok bytes := by
  have hread : jsonHexString BLE_HS_ADV_MAX_FIELD_SZ r.parent name =
      if bytes.length ≠ 0 then .ok bytes else .error .enoent := by
    unfold jsonHexString
    rw [member_given _ _ _ _ _ h]
    split_ifs with hbytes
    · rw [byteString_read bytes _ hfits]
    · rfl
  obtain ⟨found, hfound, hbytes⟩ := want_list _ _ _ (Exit.build msg) _ _ hread (nil_of_absent bytes)
  unfold advBytesDec
  rw [Decoder.result_bind _ _ _ hfound, hbytes]
  rfl

theorem advIntDec_given (msg : String) (minval maxval : Int) (present : Bool) (n : Int)
    (hmin : minval ≤ n) (hmax : n ≤ maxval)
    (h : r.parent.getObjectItem name = given (present = true) (.number n)) :
    ∃ val, (advIntDec r name msg minval maxval).result = .ok (val, present) ∧
      (present = true → val = n) := by
  have hread := jsonIntBounds_given minval maxval _ _ _ _ h hmin hmax
  unfold advIntDec wantPair
  rw [hread]
  cases present with
  | false => exact ⟨0, rfl, fun h => by cases h⟩
  | true => exact ⟨n, rfl, fun _ => rfl⟩

theorem advHalfDec_given (msg : String) (present : Bool) (n : UInt16)
    (h : r.parent.getObjectItem name = given (present = true) (.number n.toNat)) :
    ∃ val, (advIntDec r name msg 0 UINT16_MAX).result = .ok (val, present) ∧
      (present = true → UInt16.ofInt val = n) := by
  have hbound := n.toNat_lt
  obtain ⟨val, hval, hsame⟩ := advIntDec_given r name msg 0 UINT16_MAX present n.toNat (by omega)
    (by unfold UINT16_MAX; omega) h
  refine ⟨val, hval, ?_⟩
  intro hpresent
  rw [hsame hpresent, ofInt_half]

theorem slaveItvlDec_given (present : Bool) (min max : UInt16)
    (hmin : r.parent.getObjectItem "slave_itvl_min" = given (present = true) (.number min.toNat))
    (hmax : r.parent.getObjectItem "slave_itvl_max" = given (present = true) (.number max.toNat)) :
    ∃ first second, (slaveItvlDec r).result = .ok (first, second, present) ∧
      (present = true → first = min ∧ second = max) := by
  have hmaxBound := max.toNat_lt
  obtain ⟨val, hval, hsame⟩ := advHalfDec_given r "slave_itvl_min" "invalid slave_itvl_min"
    present min hmin
  have hread := jsonIntBounds_given 0 UINT16_MAX _ _ _ _ hmax (by omega)
    (by unfold UINT16_MAX; omega)
  unfold slaveItvlDec
  rw [Decoder.result_bind _ _ _ hval]
  cases present with
  | false => exact ⟨_, _, rfl, fun h => by cases h⟩
  | true =>
      have hint : jsonInt 0 UINT16_MAX r.parent "slave_itvl_max" = .ok max.toNat := by
        simp only [jsonInt, hread, if_true, checked]
      have hneed := need_ok r.parent "slave_itvl_max" _ (Exit.build "invalid slave_itvl_max") _ hint
      refine ⟨UInt16.ofInt val, UInt16.ofInt max.toNat, ?_, ?_⟩
      · simp only [if_true, hneed]
        rfl
      · intro _
        exact ⟨hsame rfl, ofInt_half max⟩

end Fields

end Blehostd
