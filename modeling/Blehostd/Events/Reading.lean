import Blehostd.Events.Seen
import Blehostd.Events.Size
import Blehostd.Json.Layout.Reading

namespace Blehostd

section Values

theorem ascii_byte_inj (a b : UInt8) (h : hexByte a = hexByte b) : a = b := by
  rw [← hexPair_text, ← hexPair_text] at h
  have hpair : hexPair a = hexPair b := by
    have hfirst := (List.cons.inj h).1
    have hsecond := (List.cons.inj (List.cons.inj h).2).1
    exact Prod.ext hfirst hsecond
  rw [← hexPair_byte a, hpair, hexPair_byte]

theorem hexByte_inj (a b : UInt8) (rest other : Text)
    (h : hexByte a ++ rest = hexByte b ++ other) : a = b ∧ rest = other := by
  obtain ⟨hbyte, hrest⟩ := List.append_inj h rfl
  exact ⟨ascii_byte_inj a b hbyte, hrest⟩

theorem u16_bytes (v w : UInt16) (hhigh : (v >>> 8).toUInt8 = (w >>> 8).toUInt8)
    (hlow : v.toUInt8 = w.toUInt8) : v = w := by
  rw [← UInt8.toNat_inj] at hhigh hlow
  simp only [UInt16.toNat_toUInt8, UInt16.toNat_shiftRight, Nat.shiftRight_eq_div_pow,
    UInt16.toNat_ofNat, Nat.reduceMod, Nat.reducePow] at hhigh hlow
  have hv := v.toNat_lt
  have hw := w.toNat_lt
  rw [← UInt16.toNat_inj]
  omega

theorem u32_bytes (v w : UInt32) (hfirst : (v >>> 24).toUInt8 = (w >>> 24).toUInt8)
    (hsecond : (v >>> 16).toUInt8 = (w >>> 16).toUInt8)
    (hthird : (v >>> 8).toUInt8 = (w >>> 8).toUInt8) (hlast : v.toUInt8 = w.toUInt8) : v = w := by
  rw [← UInt8.toNat_inj] at hfirst hsecond hthird hlast
  simp only [UInt32.toNat_toUInt8, UInt32.toNat_shiftRight, Nat.shiftRight_eq_div_pow,
    UInt32.toNat_ofNat, Nat.reduceMod, Nat.reducePow] at hfirst hsecond hthird hlast
  have hv := v.toNat_lt
  have hw := w.toNat_lt
  rw [← UInt32.toNat_inj]
  omega

theorem canonicalUuid_inj (a b : Uuid) (h : canonicalUuid a = canonicalUuid b) : a = b := by
  have hsize := congrArg List.length h
  rw [canonicalUuid_size, canonicalUuid_size] at hsize
  cases a with
  | u16 v =>
      cases b with
      | u16 w =>
          simp only [canonicalUuid, List.append_assoc, List.append_cancel_left_eq] at h
          obtain ⟨hhigh, hlow⟩ := hexByte_inj _ _ _ _ h
          rw [u16_bytes v w hhigh (ascii_byte_inj _ _ hlow)]
      | _ => cases hsize
  | u32 v =>
      cases b with
      | u32 w =>
          simp only [canonicalUuid, List.append_assoc, List.append_cancel_left_eq] at h
          obtain ⟨hfirst, h⟩ := hexByte_inj _ _ _ _ h
          obtain ⟨hsecond, h⟩ := hexByte_inj _ _ _ _ h
          obtain ⟨hthird, hlast⟩ := hexByte_inj _ _ _ _ h
          rw [u32_bytes v w hfirst hsecond hthird (ascii_byte_inj _ _ hlast)]
      | _ => cases hsize
  | u128 v =>
      cases b with
      | u128 w =>
          have hread := uuidText_read v
          rw [h, uuidText_read w] at hread
          exact (Except.ok.inj hread).symm
      | _ => cases hsize

theorem addrStr_inj (a b : Addr) (h : addrStr a = addrStr b) : a = b := by
  have hread := addr_read a
  rw [h, addr_read b] at hread
  exact (Except.ok.inj hread).symm

theorem createByteString_inj (a b : List UInt8) (h : createByteString a = createByteString b) :
    a = b := by
  have hread := byteString_read a (max a.length b.length) (Nat.le_max_left _ _)
  rw [h, byteString_read b _ (Nat.le_max_right _ _)] at hread
  exact (Except.ok.inj hread).symm

-- The text is complete when there is room for all of it.
theorem hexStr_inj (maxDstLen : Nat) (a b : List UInt8) (ha : 5 * a.length ≤ maxDstLen)
    (hb : 5 * b.length ≤ maxDstLen) (h : (hexStr maxDstLen a).1 = (hexStr maxDstLen b).1) :
    a = b := by
  rw [hexStr_complete _ a ha, hexStr_complete _ b hb] at h
  apply createByteString_inj
  unfold createByteString
  rw [hexStr_complete _ a (by omega), hexStr_complete _ b (by omega), h]

theorem given_iff (p q : Prop) [Decidable p] [Decidable q] (x y : Json) :
    given p x = given q y ↔ (p ↔ q) ∧ (p → x = y) := by
  unfold given
  by_cases hp : p <;> by_cases hq : q <;> simp [hp, hq]

-- A member that is left out for one value.
theorem given_ne {α : Type} [DecidableEq α] (out : α) (f : α → Json)
    (hf : ∀ a b, f a = f b → a = b) (a b : α)
    (h : given (a ≠ out) (f a) = given (b ≠ out) (f b)) : a = b := by
  obtain ⟨hiff, hitem⟩ := (given_iff _ _ _ _).mp h
  by_cases ha : a = out
  · have hb : b = out := by
      by_contra hb
      exact hiff.mpr hb ha
    rw [ha, hb]
  · exact hf a b (hitem ha)

theorem given_list {α : Type} (f : List α → Json) (hf : ∀ a b, f a = f b → a = b) (a b : List α)
    (h : given (a.length ≠ 0) (f a) = given (b.length ≠ 0) (f b)) : a = b := by
  obtain ⟨hiff, hitem⟩ := (given_iff _ _ _ _).mp h
  by_cases ha : a.length = 0
  · have hb : b.length = 0 := by
      by_contra hb
      exact hiff.mpr hb ha
    rw [List.length_eq_zero_iff.mp ha, List.length_eq_zero_iff.mp hb]
  · exact hf a b (hitem ha)

theorem array_inj {α : Type} (create : α → Json) (hcreate : ∀ a b, create a = create b → a = b)
    (a b : List α) (h : Json.array (a.map create) = .array (b.map create)) : a = b := by
  have hlist := Json.array.inj h
  exact (List.map_injective_iff.mpr fun _ _ heq => hcreate _ _ heq) hlist

theorem given_array {α : Type} (create : α → Json) (hcreate : ∀ a b, create a = create b → a = b)
    (a b : List α) (h : given (a.length ≠ 0) (.array (a.map create)) =
      given (b.length ≠ 0) (.array (b.map create))) : a = b :=
  given_list (fun list => .array (list.map create)) (array_inj create hcreate) a b h

theorem createBool_inj (a b : Bool) (h : Json.createBool a = Json.createBool b) : a = b := by
  cases a <;> cases b <;> first | rfl | cases h

-- Whether a list is complete is seen when the list is there.
theorem given_complete (p q : Prop) [Decidable p] [Decidable q] (a b : Bool)
    (h : given p (Json.createBool a) = given q (Json.createBool b)) :
    (decide p && a) = (decide q && b) := by
  obtain ⟨hiff, hitem⟩ := (given_iff _ _ _ _).mp h
  by_cases hp : p
  · rw [createBool_inj a b (hitem hp), decide_eq_decide.mpr hiff]
  · have hq : ¬q := fun hq => hp (hiff.mpr hq)
    simp [hp, hq]

theorem given_text (a b : List UInt8)
    (h : given (a.length ≠ 0) (.string (a.takeWhile (· ≠ 0))) =
      given (b.length ≠ 0) (.string (b.takeWhile (· ≠ 0)))) :
    seenText a = seenText b ∧ (a.length = 0 ↔ b.length = 0) := by
  obtain ⟨hiff, hitem⟩ := (given_iff _ _ _ _).mp h
  have hempty := not_iff_not.mp hiff
  refine ⟨?_, hempty⟩
  by_cases ha : a.length = 0
  · rw [List.length_eq_zero_iff.mp ha, List.length_eq_zero_iff.mp (hempty.mp ha)]
  · have htext := Json.string.inj (hitem ha)
    have hb := fun hb => ha (hempty.mpr hb)
    unfold seenText
    rw [htext]
    by_cases hnone : b.takeWhile (· ≠ 0) = []
    · -- Both start with a NUL.
      have hfirst (bytes : List UInt8) (hbytes : bytes.length ≠ 0)
          (htake : bytes.takeWhile (· ≠ 0) = []) : bytes.take 1 = [0] := by
        cases bytes with
        | nil => exact absurd rfl hbytes
        | cons c rest =>
            by_cases hc : c = 0
            · rw [hc]
              rfl
            · simp [hc] at htake
      rw [if_pos hnone, if_pos hnone, hfirst a ha (htext.trans hnone), hfirst b hb hnone]
    · rw [if_neg hnone, if_neg hnone]

-- A value that is there when a condition holds.
theorem given_value {α : Type} (f : α → Json) (hf : ∀ a b, f a = f b → a = b) (out : α)
    (p q : Prop) [Decidable p] [Decidable q] (a b : α) (h : given p (f a) = given q (f b)) :
    (p ↔ q) ∧ (if p then a else out) = if q then b else out := by
  obtain ⟨hiff, hitem⟩ := (given_iff _ _ _ _).mp h
  refine ⟨hiff, ?_⟩
  by_cases hp : p
  · rw [if_pos hp, if_pos (hiff.mp hp), hf a b (hitem hp)]
  · rw [if_neg hp, if_neg fun hq => hp (hiff.mpr hq)]

-- A name is of one value when no two names are the same.
theorem kvFind_kvRevFind {α : Type} [DecidableEq α] (map : List (String × α))
    (hdistinct : (map.map fun entry => ascii entry.1).Nodup) (val : α) (name : String)
    (h : kvRevFind map val = some name) : kvFind map (ascii name) = some val := by
  obtain ⟨entry, hentry, rfl⟩ := Option.map_eq_some_iff.mp h
  have hval : entry.2 = val := by simpa using List.find?_some hentry
  have hmem := List.mem_of_find?_eq_some hentry
  unfold kvFind
  cases hfind : map.find? fun other => ascii other.1 = ascii entry.1 with
  | none => simpa using List.find?_eq_none.mp hfind entry hmem
  | some other =>
      have hname : ascii other.1 = ascii entry.1 := by simpa using List.find?_some hfind
      have hsame := List.inj_on_of_nodup_map hdistinct (List.mem_of_find?_eq_some hfind) hmem hname
      rw [Option.map_some, hsame, hval]

-- A map of names in which no two values have the same name, and UNNAMED has none.
structure KvNamed (map : List (String × Int)) : Prop where
  distinct : (map.map fun entry => ascii entry.1).Nodup
  unnamed : kvRevFind map (UNNAMED.toNat : Int) = none

theorem named_seen {map : List (String × Int)} (hmap : KvNamed map) (a b : UInt8)
    (h : named map a = named map b) : seenKv map a = seenKv map b := by
  unfold named at h
  unfold seenKv
  cases ha : kvRevFind map (a.toNat : Int) with
  | none =>
      rw [ha, Option.map_none] at h
      have hb := Option.map_eq_none_iff.mp h.symm
      rw [hb]
      rfl
  | some name =>
      rw [ha, Option.map_some] at h
      obtain ⟨other, hb, hname⟩ := Option.map_eq_some_iff.mp h.symm
      have hfind := kvFind_kvRevFind map hmap.distinct _ _ ha
      rw [← Json.string.inj hname, kvFind_kvRevFind map hmap.distinct _ _ hb] at hfind
      have habs : a = b := by
        rw [← UInt8.toNat_inj]
        exact (Int.ofNat.inj (Option.some.inj hfind)).symm
      rw [hb, habs]
      rfl

theorem addrTypeMap_named : KvNamed addrTypeMap := ⟨by decide, by decide⟩
theorem advEventTypeMap_named : KvNamed advEventTypeMap := ⟨by decide, by decide⟩
theorem gattAccessOpMap_named : KvNamed gattAccessOpMap := ⟨by decide, by decide⟩
theorem smPasskeyActionMap_named : KvNamed smPasskeyActionMap := ⟨by decide, by decide⟩

end Values

section Tables

theorem tableMembers_key (table : List (String × Option Json)) (member : Text × Json)
    (h : member ∈ tableMembers table) : member.1 ∈ table.map fun entry => ascii entry.1 := by
  obtain ⟨entry, hentry, hmember⟩ := List.mem_flatMap.mp h
  obtain ⟨item, -, rfl⟩ := Option.map_eq_some_iff.mp (Option.mem_toList.mp hmember)
  exact List.mem_map.mpr ⟨entry, hentry, rfl⟩

theorem tableMembers_absent (table : List (String × Option Json)) (name : String) (item : Json)
    (rest : Members) (hnew : ascii name ∉ table.map fun entry => ascii entry.1) :
    tableMembers table ≠ (ascii name, item) :: rest := by
  intro h
  apply hnew
  exact tableMembers_key table (ascii name, item) (by rw [h]; exact List.mem_cons_self)

-- The members tell which entries have a value.
theorem tableMembers_inj (first second : List (String × Option Json))
    (hnames : first.map Prod.fst = second.map Prod.fst)
    (hdistinct : (first.map fun entry => ascii entry.1).Nodup)
    (h : tableMembers first = tableMembers second) : first = second := by
  induction first generalizing second with
  | nil => exact (List.map_eq_nil_iff.mp hnames.symm).symm
  | cons entry first ih =>
      cases second with
      | nil => cases hnames
      | cons other second =>
          obtain ⟨name, item⟩ := entry
          obtain ⟨name', item'⟩ := other
          obtain ⟨rfl, hrest⟩ := List.cons.inj hnames
          obtain ⟨hnew, hlater⟩ := List.nodup_cons.mp hdistinct
          have hkeys : (second.map fun entry => ascii entry.1) =
              first.map fun entry => ascii entry.1 := by
            have hmap := congrArg (List.map ascii) hrest
            rw [List.map_map, List.map_map] at hmap
            exact hmap.symm
          have hnew' : ascii name ∉ second.map fun entry => ascii entry.1 := by
            rw [hkeys]
            exact hnew
          cases item with
          | none =>
              cases item' with
              | none => rw [ih second hrest hlater h]
              | some b => exact absurd h (tableMembers_absent first name b _ hnew)
          | some a =>
              cases item' with
              | none => exact absurd h.symm (tableMembers_absent second name a _ hnew')
              | some b =>
                  obtain ⟨hmember, hmembers⟩ := List.cons.inj h
                  rw [ih second hrest hlater hmembers, (Prod.mk.inj hmember).2]

-- The names of the members that the events of a type may have.
def evtNames : MsgType → List String
  | .syncEvt => ["synced"]
  | .connectEvt => ["status", "conn_handle"]
  | .disconnectEvt => ["reason", "conn_handle", "own_id_addr_type", "own_id_addr",
      "own_ota_addr_type", "own_ota_addr", "peer_id_addr_type", "peer_id_addr",
      "peer_ota_addr_type", "peer_ota_addr"]
  | .discSvcEvt => ["conn_handle", "status", "service"]
  | .discChrEvt => ["conn_handle", "status", "characteristic"]
  | .discDscEvt => ["conn_handle", "status", "chr_def_handle", "descriptor"]
  | .writeAckEvt => ["conn_handle", "attr_handle", "status"]
  | .notifyRxEvt => ["conn_handle", "attr_handle", "indication", "data"]
  | .mtuChangeEvt => ["conn_handle", "mtu", "status"]
  | .scanEvt => ["event_type", "addr_type", "addr", "rssi", "data", "direct_addr_type",
      "direct_addr"] ++ fieldNames.map ("data_" ++ ·)
  | .advCompleteEvt => ["reason"]
  | .encChangeEvt => ["conn_handle", "status"]
  | .resetEvt => ["reason"]
  | .accessEvt => ["access_op", "conn_handle", "att_handle", "data"]
  | .passkeyEvt => ["conn_handle", "action", "numcmp"]
  | _ => []

theorem evtNames_distinct (type : MsgType) : ((evtNames type).map ascii).Nodup := by
  cases type <;> decide +kernel

theorem bodyTable_names (uuidToStr : Uuid → Text) (body : EvtBody) :
    (bodyTable uuidToStr body).map Prod.fst = evtNames body.type := by
  cases body <;> rfl

theorem bodyTable_of_members (uuidToStr : Uuid → Text) (a b : EvtBody) (htype : a.type = b.type)
    (h : tableMembers (bodyTable uuidToStr a) = tableMembers (bodyTable uuidToStr b)) :
    bodyTable uuidToStr a = bodyTable uuidToStr b := by
  apply tableMembers_inj _ _ _ _ h
  · rw [bodyTable_names, bodyTable_names, htype]
  · have hdistinct := evtNames_distinct a.type
    rw [← bodyTable_names uuidToStr a, List.map_map] at hdistinct
    exact hdistinct

end Tables

section Seen

theorem seen_named (map : List (String × Int)) (hmap : KvNamed map) (val : UInt8) :
    named map (seenKv map val) = named map val := by
  unfold seenKv
  cases hval : kvRevFind map (val.toNat : Int) with
  | none => simp [named, hval, hmap.unnamed]
  | some name => simp

theorem addrTable_seen (typeName name : String) (a b : BleAddr)
    (h : addrTable typeName name a = addrTable typeName name b) : a.seen = b.seen := by
  simp only [addrTable, List.cons.injEq, Prod.mk.injEq, true_and, and_true] at h
  obtain ⟨htype, hval⟩ := h
  obtain ⟨hiff, haddr⟩ := (given_iff _ _ _ _).mp hval
  unfold BleAddr.seen
  by_cases ha : a.type = BHD_ADDR_TYPE_NONE
  · have hb : b.type = BHD_ADDR_TYPE_NONE := by
      by_contra hb
      exact hiff.mpr hb ha
    rw [if_pos ha, if_pos hb]
  · have hb := hiff.mp ha
    rw [if_pos ha, if_pos hb] at htype
    rw [if_neg ha, if_neg hb, named_seen addrTypeMap_named _ _ htype,
      addrStr_inj _ _ (Json.string.inj (haddr ha))]

theorem seen_addrTable (typeName name : String) (addr : BleAddr) :
    addrTable typeName name addr.seen = addrTable typeName name addr := by
  unfold BleAddr.seen
  split_ifs with hnone
  · simp [addrTable, hnone, given]
  · have hother : seenKv addrTypeMap addr.type ≠ BHD_ADDR_TYPE_NONE := by
      unfold seenKv
      split_ifs
      · exact hnone
      · decide
    simp [addrTable, hnone, hother, given, seen_named addrTypeMap addrTypeMap_named]

theorem u16_number (a b : UInt16) (h : Json.number a.toNat = .number b.toNat) : a = b := by
  rw [← UInt16.toNat_inj]
  exact Int.ofNat.inj (Json.number.inj h)

theorem u8_number (a b : UInt8) (h : Json.number a.toNat = .number b.toNat) : a = b := by
  rw [← UInt8.toNat_inj]
  exact Int.ofNat.inj (Json.number.inj h)

theorem u32_number (a b : UInt32) (h : Json.number a.toNat = .number b.toNat) : a = b := by
  rw [← UInt32.toNat_inj]
  exact Int.ofNat.inj (Json.number.inj h)

theorem i32_number (a b : Int32) (h : Json.number a.toInt = .number b.toInt) : a = b :=
  Int32.toInt_inj.mp (Json.number.inj h)

theorem i8_number (a b : Int8) (h : Json.number a.toInt = .number b.toInt) : a = b :=
  Int8.toInt_inj.mp (Json.number.inj h)

theorem connDesc_seen (a b : ConnFindRsp) (h : connDescTable a = connDescTable b) :
    a.seen = b.seen := by
  have hhandle : given (a.connHandle ≠ BLE_HS_CONN_HANDLE_NONE) (.number a.connHandle.toNat) =
      given (b.connHandle ≠ BLE_HS_CONN_HANDLE_NONE) (.number b.connHandle.toNat) :=
    (Prod.mk.inj (List.cons.inj h).1).2
  have hourId := addrTable_seen _ _ a.ourIdAddr b.ourIdAddr
    (congrArg (fun table => (table.drop 1).take 2) h)
  have hourOta := addrTable_seen _ _ a.ourOtaAddr b.ourOtaAddr
    (congrArg (fun table => (table.drop 3).take 2) h)
  have hpeerId := addrTable_seen _ _ a.peerIdAddr b.peerIdAddr
    (congrArg (fun table => (table.drop 5).take 2) h)
  have hpeerOta := addrTable_seen _ _ a.peerOtaAddr b.peerOtaAddr
    (congrArg (fun table => (table.drop 7).take 2) h)
  have hconn := given_ne BLE_HS_CONN_HANDLE_NONE (fun handle => .number handle.toNat) u16_number
    a.connHandle b.connHandle hhandle
  unfold ConnFindRsp.seen
  rw [hconn, hourId, hourOta, hpeerId, hpeerOta]

theorem fields_seen (uuidToStr : Uuid → Text) (huuid : ∀ a b, uuidToStr a = uuidToStr b → a = b)
    (f g : AdvFieldsReq)
    (h : (fieldTable uuidToStr f).map Prod.snd = (fieldTable uuidToStr g).map Prod.snd) :
    f.seen = g.seen := by
  simp only [fieldTable, List.map_cons, List.map_nil, List.cons_append, List.nil_append,
    List.cons.injEq, and_true] at h
  obtain ⟨hflags, huuids16, hcomplete16, huuids32, hcomplete32, huuids128, hcomplete128, hname,
    hnameComplete, htxPwr, hitvlMin, hitvlMax, hsvcData16, htgtAddrs, happearance, hadvItvl,
    hsvcData32, hsvcData128, huri, hmfgData⟩ := h
  have h16 := given_array _ (fun a b => u16_number a b) _ _ huuids16
  have h32 := given_array _ (fun a b => u32_number a b) _ _ huuids32
  have h128 := given_array _ (fun a b hab => Uuid.u128.inj (huuid _ _ (Json.string.inj hab))) _ _
    huuids128
  have haddrs := given_array _ (fun a b hab => addrStr_inj a b (Json.string.inj hab)) _ _ htgtAddrs
  have hnameText := given_text _ _ hname
  have huriText := given_text _ _ huri
  have hpwr := given_value (fun pwr : Int8 => .number pwr.toInt) i8_number 0 _ _ _ _ htxPwr
  have hmin := given_value (fun itvl : UInt16 => .number itvl.toNat) u16_number 0 _ _ _ _ hitvlMin
  have hmax := given_value (fun itvl : UInt16 => .number itvl.toNat) u16_number 0 _ _ _ _ hitvlMax
  have hlook := given_value (fun look : UInt16 => .number look.toNat) u16_number 0 _ _ _ _
    happearance
  have hadv := given_value (fun itvl : UInt16 => .number itvl.toNat) u16_number 0 _ _ _ _ hadvItvl
  have hdata16 := given_list createByteString createByteString_inj _ _ hsvcData16
  have hdata32 := given_list createByteString createByteString_inj _ _ hsvcData32
  have hdata128 := given_list createByteString createByteString_inj _ _ hsvcData128
  have hmfg := given_list createByteString createByteString_inj _ _ hmfgData
  have hflag := given_ne 0 (fun flags : UInt8 => .number flags.toNat) u8_number _ _ hflags
  simp only [AdvFieldsReq.seen, AdvFieldsReq.mk.injEq]
  exact ⟨hflag, h16, given_complete _ _ _ _ hcomplete16, h32, given_complete _ _ _ _ hcomplete32,
    h128, given_complete _ _ _ _ hcomplete128, hnameText.1, given_complete _ _ _ _ hnameComplete,
    hpwr.2, Bool.eq_iff_iff.mpr hpwr.1, hmin.2, hmax.2, Bool.eq_iff_iff.mpr hmin.1, hdata16, haddrs,
    hlook.2, Bool.eq_iff_iff.mpr hlook.1, hadv.2, Bool.eq_iff_iff.mpr hadv.1, hdata32, hdata128, huriText.1,
    hmfg⟩

theorem seenText_iff (bytes : List UInt8) : (seenText bytes).length ≠ 0 ↔ bytes.length ≠ 0 := by
  unfold seenText
  cases bytes with
  | nil => simp
  | cons c rest => split_ifs <;> simp_all

theorem seenText_text (bytes : List UInt8) :
    (seenText bytes).takeWhile (· ≠ 0) = bytes.takeWhile (· ≠ 0) := by
  unfold seenText
  split_ifs with hnone
  · cases bytes with
    | nil => rfl
    | cons c rest =>
        by_cases hc : c = 0
        · simp [hc]
        · simp [hc] at hnone
  · rw [List.takeWhile_takeWhile]
    simp

theorem given_congr {p q : Prop} [Decidable p] [Decidable q] {x y : Json} (hiff : p ↔ q)
    (hitem : p → x = y) : given p x = given q y :=
  (given_iff p q x y).mpr ⟨hiff, hitem⟩

theorem seen_complete (p : Prop) [Decidable p] (isComplete : Bool) :
    given p (Json.createBool (decide p && isComplete)) = given p (Json.createBool isComplete) :=
  given_congr Iff.rfl fun hp => by rw [decide_eq_true hp, Bool.true_and]

theorem seen_present {α : Type} (f : α → Json) (out : α) (p : Bool) (val : α) :
    given (p = true) (f (if p then val else out)) = given (p = true) (f val) :=
  given_congr Iff.rfl fun hp => by rw [if_pos hp]

theorem seen_text (bytes : List UInt8) :
    given ((seenText bytes).length ≠ 0) (.string ((seenText bytes).takeWhile (· ≠ 0))) =
      given (bytes.length ≠ 0) (.string (bytes.takeWhile (· ≠ 0))) :=
  given_congr (seenText_iff bytes) fun _ => by rw [seenText_text]

theorem seen_fields (uuidToStr : Uuid → Text) (f : AdvFieldsReq) :
    fieldTable uuidToStr f.seen = fieldTable uuidToStr f := by
  have hname : given ((seenText f.name).length ≠ 0)
      (Json.createBool (decide (f.name.length ≠ 0) && f.nameIsComplete)) =
      given (f.name.length ≠ 0) (Json.createBool f.nameIsComplete) :=
    given_congr (seenText_iff f.name) fun hname => by
      rw [decide_eq_true ((seenText_iff f.name).mp hname), Bool.true_and]
  have hpwr := seen_present (fun pwr : Int8 => .number pwr.toInt) 0 f.txPwrLvlIsPresent f.txPwrLvl
  have hhalf := seen_present fun half : UInt16 => .number half.toNat
  simp only [fieldTable, List.cons_append, List.nil_append, List.cons.injEq, Prod.mk.injEq,
    true_and, and_true]
  exact ⟨rfl, rfl, seen_complete _ _, rfl, seen_complete _ _, rfl, seen_complete _ _,
    seen_text f.name, hname, hpwr, hhalf 0 _ _, hhalf 0 _ _, rfl, rfl, hhalf 0 _ _, hhalf 0 _ _,
    rfl, rfl, seen_text f.uri, rfl⟩

theorem given_bytes (a b : List UInt8) (h : given (0 < a.length) (createByteString a) =
    given (0 < b.length) (createByteString b)) : a = b := by
  simp only [Nat.pos_iff_ne_zero] at h
  exact given_list createByteString createByteString_inj a b h

theorem scan_seen (uuidToStr : Uuid → Text) (huuid : ∀ a b, uuidToStr a = uuidToStr b → a = b)
    (a b : ScanEvt) (h : scanTable uuidToStr a = scanTable uuidToStr b) : a.seen = b.seen := by
  have hfields : (fieldTable uuidToStr a.fields).map Prod.snd =
      (fieldTable uuidToStr b.fields).map Prod.snd := by
    have hdrop := congrArg (fun table => (table.drop 7).map Prod.snd) h
    simp only [scanTable, List.cons_append, List.nil_append, List.drop_succ_cons, List.drop_zero,
      List.map_map] at hdrop
    exact hdrop
  have hfront := congrArg (fun table => (table.take 7).map Prod.snd) h
  simp only [scanTable, List.cons_append, List.nil_append, List.take_succ_cons, List.take_zero,
    List.map_cons, List.map_nil, List.cons.injEq, Option.some.injEq, and_true] at hfront
  obtain ⟨heventType, haddrType, haddr, hrssi, hdata, hdirectType, hdirect⟩ := hfront
  have hseenDirect : a.seen.directAddr = b.seen.directAddr := by
    obtain ⟨hiff, hval⟩ := (given_iff _ _ _ _).mp hdirect
    unfold ScanEvt.seen
    by_cases hzero : a.directAddr = BleAddr.zero
    · have hzero' : b.directAddr = BleAddr.zero := by
        by_contra hb
        exact hiff.mpr hb hzero
      rw [if_pos hzero, if_pos hzero']
    · have hzero' := hiff.mp hzero
      rw [if_pos hzero, if_pos hzero'] at hdirectType
      rw [if_neg hzero, if_neg hzero', named_seen addrTypeMap_named _ _ hdirectType,
        addrStr_inj _ _ (Json.string.inj (hval hzero))]
  have hseenFields := fields_seen uuidToStr huuid a.fields b.fields hfields
  simp only [ScanEvt.seen, ScanEvt.mk.injEq] at hseenDirect ⊢
  refine ⟨named_seen advEventTypeMap_named _ _ heventType, ?_, i8_number _ _ hrssi,
    given_bytes _ _ hdata, hseenDirect, hseenFields⟩
  rw [named_seen addrTypeMap_named _ _ haddrType, addrStr_inj _ _ (Json.string.inj haddr)]

theorem seen_direct (addr : BleAddr) (hzero : addr ≠ BleAddr.zero) :
    (⟨seenKv addrTypeMap addr.type, addr.val⟩ : BleAddr) ≠ BleAddr.zero := by
  unfold seenKv
  split_ifs
  · exact hzero
  · intro h
    have htype : UNNAMED = 0 := congrArg BleAddr.type h
    exact absurd htype (by decide)

theorem seen_scan (uuidToStr : Uuid → Text) (evt : ScanEvt) :
    scanTable uuidToStr evt.seen = scanTable uuidToStr evt := by
  have hfields := seen_fields uuidToStr evt.fields
  have heventType := seen_named advEventTypeMap advEventTypeMap_named evt.eventType
  have haddrType := seen_named addrTypeMap addrTypeMap_named evt.addr.type
  by_cases hzero : evt.directAddr = BleAddr.zero
  · simp [scanTable, ScanEvt.seen, hfields, heventType, haddrType, hzero]
  · have hdirect := seen_direct evt.directAddr hzero
    have hdirectType := seen_named addrTypeMap addrTypeMap_named evt.directAddr.type
    simp [scanTable, ScanEvt.seen, hfields, heventType, haddrType, hzero, hdirect, hdirectType]

section Records

variable (uuidToStr : Uuid → Text) (huuid : ∀ a b, uuidToStr a = uuidToStr b → a = b)
include huuid

theorem svcRecord_inj (a b : GattSvc)
    (h : Json.object (addInt "start_handle" a.startHandle.toNat ++
      addInt "end_handle" a.endHandle.toNat ++ addText "uuid" (uuidToStr a.uuid)) =
      .object (addInt "start_handle" b.startHandle.toNat ++
      addInt "end_handle" b.endHandle.toNat ++ addText "uuid" (uuidToStr b.uuid))) : a = b := by
  simp only [addInt, addText, List.cons_append, List.nil_append, Json.object.injEq,
    List.cons.injEq, Prod.mk.injEq, true_and, and_true] at h
  obtain ⟨hstart, hend, huuidText⟩ := h
  obtain ⟨start, last, uuid⟩ := a
  obtain rfl := u16_number _ _ hstart
  obtain rfl := u16_number _ _ hend
  obtain rfl := huuid _ _ (Json.string.inj huuidText)
  rfl

theorem chrRecord_inj (a b : GattChr)
    (h : Json.object (addInt "def_handle" a.defHandle.toNat ++
      addInt "val_handle" a.valHandle.toNat ++ addInt "properties" a.properties.toNat ++
      addText "uuid" (uuidToStr a.uuid)) =
      .object (addInt "def_handle" b.defHandle.toNat ++
      addInt "val_handle" b.valHandle.toNat ++ addInt "properties" b.properties.toNat ++
      addText "uuid" (uuidToStr b.uuid))) : a = b := by
  simp only [addInt, addText, List.cons_append, List.nil_append, Json.object.injEq,
    List.cons.injEq, Prod.mk.injEq, true_and, and_true] at h
  obtain ⟨hdef, hval, hproperties, huuidText⟩ := h
  obtain ⟨defHandle, valHandle, properties, uuid⟩ := a
  obtain rfl := u16_number _ _ hdef
  obtain rfl := u16_number _ _ hval
  obtain rfl := u8_number _ _ hproperties
  obtain rfl := huuid _ _ (Json.string.inj huuidText)
  rfl

theorem dscRecord_inj (a b : GattDsc)
    (h : Json.object (addInt "handle" a.handle.toNat ++ addText "uuid" (uuidToStr a.uuid)) =
      .object (addInt "handle" b.handle.toNat ++ addText "uuid" (uuidToStr b.uuid))) : a = b := by
  simp only [addInt, addText, List.cons_append, List.nil_append, Json.object.injEq,
    List.cons.injEq, Prod.mk.injEq, true_and, and_true] at h
  obtain ⟨hhandle, huuidText⟩ := h
  obtain ⟨handle, uuid⟩ := a
  obtain rfl := u16_number _ _ hhandle
  obtain rfl := huuid _ _ (Json.string.inj huuidText)
  rfl

-- The members of an event tell what is seen of it. One case for each type.
theorem body_seen (a b : EvtBody) (ha : a.Fits) (hb : b.Fits) (htype : a.type = b.type)
    (h : bodyTable uuidToStr a = bodyTable uuidToStr b) : a.seen = b.seen := by
  cases a with
  | sync synced =>
      cases b with
      | sync synced' =>
          have hsynced := Option.some.inj (Prod.mk.inj (List.cons.inj h).1).2
          rw [createBool_inj _ _ hsynced]
      | _ => cases htype
  | connect evt =>
      cases b with
      | connect evt' =>
          simp only [bodyTable, List.cons.injEq, Prod.mk.injEq, Option.some.injEq, true_and,
            and_true] at h
          obtain ⟨hstatus, hhandle⟩ := h
          obtain ⟨status, connHandle⟩ := evt
          obtain rfl := i32_number _ _ hstatus
          obtain rfl := given_ne BLE_HS_CONN_HANDLE_NONE (fun handle => .number handle.toNat)
            u16_number _ _ hhandle
          rfl
      | _ => cases htype
  | disconnect evt =>
      cases b with
      | disconnect evt' =>
          obtain ⟨hreason, hdesc⟩ := List.cons.inj h
          obtain ⟨desc, reason⟩ := evt
          obtain rfl := i32_number _ _ (Option.some.inj (Prod.mk.inj hreason).2)
          simp only [EvtBody.seen, connDesc_seen desc evt'.desc hdesc]
      | _ => cases htype
  | discSvc evt =>
      cases b with
      | discSvc evt' =>
          simp only [bodyTable, List.cons.injEq, Prod.mk.injEq, Option.some.injEq, true_and,
            and_true] at h
          obtain ⟨hconn, hstatus, hrecord⟩ := h
          obtain ⟨connHandle, status, svc⟩ := evt
          obtain rfl := u16_number _ _ hconn
          obtain rfl := i32_number _ _ hstatus
          have hsvc := given_value _ (svcRecord_inj uuidToStr huuid) ⟨0, 0, .u16 0⟩ _ _ _ _ hrecord
          simp only [EvtBody.seen, DiscSvcEvt.seen, hsvc.2]
      | _ => cases htype
  | discChr evt =>
      cases b with
      | discChr evt' =>
          simp only [bodyTable, List.cons.injEq, Prod.mk.injEq, Option.some.injEq, true_and,
            and_true] at h
          obtain ⟨hconn, hstatus, hrecord⟩ := h
          obtain ⟨connHandle, status, chr⟩ := evt
          obtain rfl := u16_number _ _ hconn
          obtain rfl := i32_number _ _ hstatus
          have hchr := given_value _ (chrRecord_inj uuidToStr huuid) ⟨0, 0, 0, .u16 0⟩ _ _ _ _
            hrecord
          simp only [EvtBody.seen, DiscChrEvt.seen, hchr.2]
      | _ => cases htype
  | discDsc evt =>
      cases b with
      | discDsc evt' =>
          simp only [bodyTable, List.cons.injEq, Prod.mk.injEq, Option.some.injEq, true_and,
            and_true] at h
          obtain ⟨hconn, hstatus, hdefHandle, hrecord⟩ := h
          obtain ⟨connHandle, status, chrDefHandle, dsc⟩ := evt
          obtain rfl := u16_number _ _ hconn
          obtain rfl := i32_number _ _ hstatus
          obtain rfl := u16_number _ _ hdefHandle
          have hdsc := given_value _ (dscRecord_inj uuidToStr huuid) ⟨0, .u16 0⟩ _ _ _ _ hrecord
          simp only [EvtBody.seen, DiscDscEvt.seen, hdsc.2]
      | _ => cases htype
  | writeAck evt =>
      cases b with
      | writeAck evt' =>
          simp only [bodyTable, List.cons.injEq, Prod.mk.injEq, Option.some.injEq, true_and,
            and_true] at h
          obtain ⟨hconn, hattr, hstatus⟩ := h
          obtain ⟨connHandle, attrHandle, status⟩ := evt
          obtain rfl := u16_number _ _ hconn
          obtain rfl := u16_number _ _ hattr
          obtain rfl := i32_number _ _ hstatus
          rfl
      | _ => cases htype
  | notifyRx evt =>
      cases b with
      | notifyRx evt' =>
          simp only [bodyTable, List.cons.injEq, Prod.mk.injEq, Option.some.injEq, true_and,
            and_true] at h
          obtain ⟨hconn, hattr, hindication, hdata⟩ := h
          have hroom (bytes : List UInt8) (hbytes : bytes.length ≤ BLE_ATT_ATTR_MAX_LEN) :
              5 * bytes.length ≤ BLE_ATT_ATTR_MAX_LEN * 5 := by omega
          have hbytes := hexStr_inj _ _ _ (hroom _ ha) (hroom _ hb) (Json.string.inj hdata)
          obtain ⟨connHandle, attrHandle, indication, data⟩ := evt
          obtain rfl := u16_number _ _ hconn
          obtain rfl := u16_number _ _ hattr
          obtain rfl := createBool_inj _ _ hindication
          obtain rfl := hbytes
          rfl
      | _ => cases htype
  | mtuChange evt =>
      cases b with
      | mtuChange evt' =>
          simp only [bodyTable, List.cons.injEq, Prod.mk.injEq, Option.some.injEq, true_and,
            and_true] at h
          obtain ⟨hconn, hmtu, hstatus⟩ := h
          obtain ⟨connHandle, mtu, status⟩ := evt
          obtain rfl := u16_number _ _ hconn
          obtain rfl := u16_number _ _ hmtu
          obtain rfl := i32_number _ _ hstatus
          rfl
      | _ => cases htype
  | scan evt =>
      cases b with
      | scan evt' =>
          simp only [EvtBody.seen, scan_seen uuidToStr huuid evt evt' h]
      | _ => cases htype
  | zero =>
      cases b with
      | zero => rfl
      | _ => cases htype
  | advComplete reason =>
      cases b with
      | advComplete reason' =>
          rw [i32_number _ _ (Option.some.inj (Prod.mk.inj (List.cons.inj h).1).2)]
      | _ => cases htype
  | encChange evt =>
      cases b with
      | encChange evt' =>
          simp only [bodyTable, List.cons.injEq, Prod.mk.injEq, Option.some.injEq, true_and,
            and_true] at h
          obtain ⟨hconn, hstatus⟩ := h
          obtain ⟨connHandle, status⟩ := evt
          obtain rfl := u16_number _ _ hconn
          obtain rfl := i32_number _ _ hstatus
          rfl
      | _ => cases htype
  | reset reason =>
      cases b with
      | reset reason' =>
          rw [i32_number _ _ (Option.some.inj (Prod.mk.inj (List.cons.inj h).1).2)]
      | _ => cases htype
  | access evt =>
      cases b with
      | access evt' =>
          simp only [bodyTable, List.cons.injEq, Prod.mk.injEq, Option.some.injEq, true_and,
            and_true] at h
          obtain ⟨hop, hconn, hatt, hdata⟩ := h
          have hseen := named_seen gattAccessOpMap_named _ _ hop
          obtain ⟨accessOp, connHandle, attHandle, data⟩ := evt
          obtain rfl := u16_number _ _ hconn
          obtain rfl := u16_number _ _ hatt
          obtain rfl := createByteString_inj _ _ hdata
          simp only [EvtBody.seen, AccessEvt.seen, hseen]
      | _ => cases htype
  | passkey evt =>
      cases b with
      | passkey evt' =>
          simp only [bodyTable, List.cons.injEq, Prod.mk.injEq, Option.some.injEq, true_and,
            and_true] at h
          obtain ⟨hconn, haction, hnumcmp⟩ := h
          have hseen := named_seen smPasskeyActionMap_named _ _ haction
          have hvalue := given_value (fun numcmp : UInt32 => .number numcmp.toNat) u32_number 0
            _ _ _ _ hnumcmp
          obtain ⟨connHandle, action, numcmp⟩ := evt
          obtain rfl := u16_number _ _ hconn
          simp only [EvtBody.seen, PasskeyEvt.seen, hseen, hvalue.2]
      | _ => cases htype

end Records

theorem seen_connDesc (desc : ConnFindRsp) : connDescTable desc.seen = connDescTable desc := by
  simp only [connDescTable, ConnFindRsp.seen, seen_addrTable]
  rfl

-- Only a passkey action without a name is seen as another one.
theorem seen_numcmp (action : UInt8) :
    ((seenKv smPasskeyActionMap action).toNat : Int) = BLE_SM_IOACT_NUMCMP ↔
      (action.toNat : Int) = BLE_SM_IOACT_NUMCMP := by
  unfold seenKv
  split_ifs with hname
  · exact Iff.rfl
  · constructor
    · intro h
      exact absurd h (by decide)
    · intro h
      rw [h] at hname
      exact absurd rfl hname

theorem seen_body (uuidToStr : Uuid → Text) (body : EvtBody) :
    bodyTable uuidToStr body.seen = bodyTable uuidToStr body := by
  cases body with
  | disconnect evt => simp only [EvtBody.seen, bodyTable, seen_connDesc]
  | discSvc evt =>
      by_cases hstatus : evt.status = 0 <;>
        simp [EvtBody.seen, bodyTable, DiscSvcEvt.seen, given, hstatus]
  | discChr evt =>
      by_cases hstatus : evt.status = 0 <;>
        simp [EvtBody.seen, bodyTable, DiscChrEvt.seen, given, hstatus]
  | discDsc evt =>
      by_cases hstatus : evt.status = 0 <;>
        simp [EvtBody.seen, bodyTable, DiscDscEvt.seen, given, hstatus]
  | scan evt => simp only [EvtBody.seen, bodyTable, seen_scan]
  | access evt =>
      have hop := seen_named gattAccessOpMap gattAccessOpMap_named evt.accessOp
      simp only [EvtBody.seen, bodyTable, AccessEvt.seen, hop]
  | passkey evt =>
      have haction := seen_named smPasskeyActionMap smPasskeyActionMap_named evt.action
      have hnumcmp : given (((seenKv smPasskeyActionMap evt.action).toNat : Int) =
            BLE_SM_IOACT_NUMCMP)
          (.number (if (evt.action.toNat : Int) = BLE_SM_IOACT_NUMCMP then evt.numcmp
            else 0).toNat) =
          given ((evt.action.toNat : Int) = BLE_SM_IOACT_NUMCMP) (.number evt.numcmp.toNat) :=
        given_congr (seen_numcmp evt.action) fun haction => by
          rw [if_pos ((seen_numcmp evt.action).mp haction)]
      simp only [EvtBody.seen, bodyTable, PasskeyEvt.seen, haction, hnumcmp]
  | _ => rfl

end Seen

section Headers

theorem opMap_distinct : (opMap.map fun entry => ascii entry.1).Nodup := by decide

theorem typeMap_distinct : (typeMap.map fun entry => ascii entry.1).Nodup := by decide +kernel

theorem opMap_find (op : MsgOp) :
    kvFind opMap (ascii ((kvRevFind opMap op).getD "")) = some op := by
  cases op <;> exact kvFind_kvRevFind opMap opMap_distinct _ _ rfl

theorem typeMap_find (type : MsgType) :
    kvFind typeMap (ascii ((kvRevFind typeMap type).getD "")) = some type := by
  cases type <;> exact kvFind_kvRevFind typeMap typeMap_distinct _ _ rfl

theorem msgHdrEnc_inj (a b : MsgHdr) (h : msgHdrEnc a = msgHdrEnc b) : a = b := by
  simp only [msgHdrEnc, addName, addString, addText, addInt, List.cons_append, List.nil_append,
    List.cons.injEq, Prod.mk.injEq, Json.string.injEq, true_and, and_true] at h
  obtain ⟨hop, htype, hseq⟩ := h
  have hopFind := opMap_find a.op
  have htypeFind := typeMap_find a.type
  rw [hop, opMap_find b.op] at hopFind
  rw [htype, typeMap_find b.type] at htypeFind
  obtain ⟨op, type, seq⟩ := a
  obtain rfl := Option.some.inj hopFind
  obtain rfl := Option.some.inj htypeFind
  obtain rfl := u32_number _ _ hseq
  rfl

theorem evtEnc_table (uuidToStr : Uuid → Text) (evt : Evt) (htype : evt.hdr.type = evt.body.type) :
    evtEnc uuidToStr evt =
      .ok (.object (msgHdrEnc evt.hdr ++ tableMembers (bodyTable uuidToStr evt.body))) := by
  rw [evtEnc, htype, evtDispatch_table]
  rfl

-- Two events are written in the same way when the client sees the same of both.
theorem evtEnc_seen_iff (uuidToStr : Uuid → Text)
    (huuid : ∀ a b, uuidToStr a = uuidToStr b → a = b) (a b : Evt)
    (hatype : a.hdr.type = a.body.type) (hbtype : b.hdr.type = b.body.type) (ha : a.body.Fits)
    (hb : b.body.Fits) :
    evtEnc uuidToStr a = evtEnc uuidToStr b ↔ a.seen = b.seen := by
  rw [evtEnc_table uuidToStr a hatype, evtEnc_table uuidToStr b hbtype]
  constructor
  · intro h
    have hmembers := Json.object.inj (Except.ok.inj h)
    obtain ⟨hhdr, hbody⟩ := List.append_inj hmembers rfl
    have hsame := msgHdrEnc_inj a.hdr b.hdr hhdr
    have htype : a.body.type = b.body.type := by rw [← hatype, ← hbtype, hsame]
    have htable := bodyTable_of_members uuidToStr a.body b.body htype hbody
    rw [Evt.seen, Evt.seen, hsame, body_seen uuidToStr huuid a.body b.body ha hb htype htable]
  · intro h
    obtain ⟨hhdr, hseen⟩ := Evt.mk.inj h
    rw [hhdr, ← seen_body uuidToStr a.body, ← seen_body uuidToStr b.body, hseen]

end Headers

end Blehostd
