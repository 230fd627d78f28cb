import Blehostd.Events.Scan
import Blehostd.Requests.AdvFields

namespace Blehostd

-- At most one entry in each list, and texts that are C strings.
structure Reportable (f : AdvFieldsReq) : Prop where
  uuids16 : f.uuids16.length ≤ 1
  uuids32 : f.uuids32.length ≤ 1
  uuids128 : f.uuids128.length ≤ 1
  publicTgtAddrs : f.publicTgtAddrs.length ≤ 1
  name : f.name.length ≤ BLE_HS_ADV_MAX_FIELD_SZ
  nameText : 0 ∉ f.name
  svcDataUuid16 : f.svcDataUuid16.length ≤ BLE_HS_ADV_MAX_FIELD_SZ
  svcDataUuid32 : f.svcDataUuid32.length ≤ BLE_HS_ADV_MAX_FIELD_SZ
  svcDataUuid128 : f.svcDataUuid128.length ≤ BLE_HS_ADV_MAX_FIELD_SZ
  uri : f.uri.length ≤ BLE_HS_ADV_MAX_FIELD_SZ
  uriText : 0 ∉ f.uri
  mfgData : f.mfgData.length ≤ BLE_HS_ADV_MAX_FIELD_SZ

-- A field that is not there has no value, and an empty list no completeness.
structure SameFields (f req : AdvFieldsReq) : Prop where
  flags : req.flags = f.flags
  uuids16 : req.uuids16 = f.uuids16
  uuids16IsComplete : f.uuids16.length ≠ 0 → req.uuids16IsComplete = f.uuids16IsComplete
  uuids32 : req.uuids32 = f.uuids32
  uuids32IsComplete : f.uuids32.length ≠ 0 → req.uuids32IsComplete = f.uuids32IsComplete
  uuids128 : req.uuids128 = f.uuids128
  uuids128IsComplete : f.uuids128.length ≠ 0 → req.uuids128IsComplete = f.uuids128IsComplete
  name : req.name = f.name
  nameIsComplete : f.name.length ≠ 0 → req.nameIsComplete = f.nameIsComplete
  txPwrLvlIsPresent : req.txPwrLvlIsPresent = f.txPwrLvlIsPresent
  txPwrLvl : f.txPwrLvlIsPresent = true → req.txPwrLvl = f.txPwrLvl
  slaveItvlRangeIsPresent : req.slaveItvlRangeIsPresent = f.slaveItvlRangeIsPresent
  slaveItvlRange : f.slaveItvlRangeIsPresent = true →
    req.slaveItvlMin = f.slaveItvlMin ∧ req.slaveItvlMax = f.slaveItvlMax
  svcDataUuid16 : req.svcDataUuid16 = f.svcDataUuid16
  publicTgtAddrs : req.publicTgtAddrs = f.publicTgtAddrs
  appearanceIsPresent : req.appearanceIsPresent = f.appearanceIsPresent
  appearance : f.appearanceIsPresent = true → req.appearance = f.appearance
  advItvlIsPresent : req.advItvlIsPresent = f.advItvlIsPresent
  advItvl : f.advItvlIsPresent = true → req.advItvl = f.advItvl
  svcDataUuid32 : req.svcDataUuid32 = f.svcDataUuid32
  svcDataUuid128 : req.svcDataUuid128 = f.svcDataUuid128
  uri : req.uri = f.uri
  mfgData : req.mfgData = f.mfgData

-- The request that is built from the members of the event.
def Readvertises (uuidToStr : Uuid → Text) (evt : ScanEvt) : Prop :=
  ∀ seq junk, ∃ req,
    (advFieldsReqRun ⟨.object (fieldMembers (scanEvtEnc uuidToStr evt)), seq, junk⟩).result =
      .ok (gapAdvFields req) ∧ SameFields evt.fields req

theorem advListDec_given {α : Type} (r : Req) (name msg : String)
    (f : Json → String → Except ErrCode (List α)) (present : Prop) [Decidable present]
    (items : List α) (h : f r.parent name = if present then .ok items else .error .enoent)
    (hempty : ¬present → items = []) : (advListDec r name msg f).result = .ok items := by
  obtain ⟨found, hfound, hitems⟩ := want_list _ _ _ (Exit.build msg) _ _ h hempty
  unfold advListDec
  rw [Decoder.result_bind _ _ _ hfound, hitems]
  rfl

theorem arrUint16_read (r : Req) (name msg : String) (maxElems : Nat) (hmax : 0 < maxElems)
    (vals : List UInt16) (hvals : vals.length ≤ 1)
    (h : r.parent.getObjectItem name =
      given (vals.length ≠ 0) (.array (vals.map fun val => createNumber val.toNat))) :
    (advListDec r name msg (jsonArrUint16 maxElems 0 0xffff)).result = .ok vals := by
  have hgen := jsonArrGen_list maxElems hmax
    (fun item =>
      checked (processJsonIntBounds (0 : UInt16).toNat (0xffff : UInt16).toNat item).1
        (processJsonIntBounds (0 : UInt16).toNat (0xffff : UInt16).toNat item).2)
    (fun val => createNumber val.toNat) (fun val => some (val.toNat : Int))
    (fun val => by
      have hval := val.toNat_lt
      have hbounds : ¬((val.toNat : Int) < (0 : UInt16).toNat ∨
          ((0xffff : UInt16).toNat : Int) < val.toNat) := by
        simp
        omega
      simp only [createNumber, processJsonIntBounds, processJsonInt, ne_eq, not_true_eq_false,
        if_false, hbounds, checked, Except.toOption])
    r.parent name vals hvals h
  apply advListDec_given _ _ _ _ (vals.length ≠ 0)
  · unfold jsonArrUint16 jsonArrLlong
    rw [hgen]
    split_ifs
    · simp [bind, Except.bind, Function.comp_def, ofInt_half]
    · rfl
  · exact nil_of_absent vals

-- The larger UUIDs are refused and passed over.
theorem arrUint32_read (r : Req) (name msg : String) (maxElems : Nat) (hmax : 0 < maxElems)
    (vals : List UInt32) (hvals : vals.length ≤ 1)
    (h : r.parent.getObjectItem name =
      given (vals.length ≠ 0) (.array (vals.map fun val => createNumber val.toNat))) :
    (advListDec r name msg (jsonArrUint32 maxElems 0 0xffff)).result =
      .ok (vals.filter (· ≤ 0xffff)) := by
  have hgen := jsonArrGen_list maxElems hmax
    (fun item =>
      checked (processJsonIntBounds (0 : UInt32).toNat (0xffff : UInt32).toNat item).1
        (processJsonIntBounds (0 : UInt32).toNat (0xffff : UInt32).toNat item).2)
    (fun val => createNumber val.toNat)
    (fun val => if val ≤ 0xffff then some (val.toNat : Int) else none)
    (fun val => by
      have hbounds : ((val.toNat : Int) < (0 : UInt32).toNat ∨
          ((0xffff : UInt32).toNat : Int) < val.toNat) ↔ ¬val ≤ 0xffff := by
        rw [UInt32.le_iff_toNat_le]
        simp
      by_cases hval : val ≤ 0xffff
      · simp only [createNumber, processJsonIntBounds, processJsonInt, ne_eq, not_true_eq_false,
          if_false, hbounds, hval, checked, Except.toOption, if_true]
      · simp only [createNumber, processJsonIntBounds, processJsonInt, ne_eq, not_true_eq_false,
          if_false, hbounds, hval, not_false_eq_true, checked, Except.toOption, if_true])
    r.parent name vals hvals h
  apply advListDec_given _ _ _ _ (vals.length ≠ 0)
  · unfold jsonArrUint32 jsonArrLlong
    rw [hgen]
    split_ifs
    · simp only [bind, Except.bind, List.map_filterMap]
      rw [← List.filterMap_eq_filter]
      congr 2
      funext val
      by_cases hval : val ≤ 0xffff
      · simp [hval, ofInt_word, Option.guard]
      · simp [hval, Option.guard]
    · rfl
  · intro habsent
    rw [nil_of_absent vals habsent, List.filter_nil]

theorem arrUuid_read (r : Req) (name msg : String) (uuidToStr : Uuid → Text)
    (hstr : ∀ value, uuidToStr (.u128 value) = canonicalUuid (.u128 value)) (maxElems : Nat)
    (hmax : 0 < maxElems) (vals : List (Vector UInt8 16)) (hvals : vals.length ≤ 1)
    (h : r.parent.getObjectItem name =
      given (vals.length ≠ 0) (.array (vals.map (createUuid128Bytes uuidToStr)))) :
    (advListDec r name msg (jsonArrUuid maxElems)).result = .ok (vals.map Uuid.u128) := by
  have hgen := jsonArrGen_list maxElems hmax processJsonUuid (createUuid128Bytes uuidToStr)
    (fun val => some (.u128 val))
    (fun val => by rw [createUuid128Bytes, hstr, uuidText_read, Except.toOption])
    r.parent name vals hvals h
  rw [List.filterMap_eq_map'] at hgen
  apply advListDec_given _ _ _ _ (vals.length ≠ 0) _ hgen
  intro habsent
  rw [nil_of_absent vals habsent, List.map_nil]

theorem arrAddr_read (r : Req) (name msg : String) (maxElems : Nat) (hmax : 0 < maxElems)
    (vals : List Addr) (hvals : vals.length ≤ 1)
    (h : r.parent.getObjectItem name = given (vals.length ≠ 0) (.array (vals.map createAddr))) :
    (advListDec r name msg (jsonArrAddr maxElems)).result = .ok vals := by
  have hgen := jsonArrGen_list maxElems hmax processJsonAddr createAddr some
    (fun val => by rw [createAddr, addr_read, Except.toOption]) r.parent name vals hvals h
  rw [List.filterMap_some] at hgen
  exact advListDec_given _ _ _ _ _ _ hgen (nil_of_absent vals)

-- The lookups of the request, with an item for each name of the table.
theorem table_decoded (uuidToStr : Uuid → Text)
    (hstr : ∀ value, uuidToStr (.u128 value) = canonicalUuid (.u128 value)) (f : AdvFieldsReq)
    (hf : Reportable f) (r : Req) (hitem : ∀ name item, (name, item) ∈ fieldTable uuidToStr f →
      r.parent.getObjectItem name = item) :
    ∃ req, AdvDecoded r req ∧
      SameFields { f with uuids32 := f.uuids32.filter (· ≤ 0xffff) } req := by
  have hfewer := List.length_filter_le (· ≤ 0xffff) f.uuids32
  -- The table says nothing about the flags of empty lists and the numbers of absent fields.
  obtain ⟨complete16, hcomplete16, hkept16⟩ := advFlagDec_given r "uuids16_is_complete"
    (.build "invalid uuids16_is_complete value") (f.uuids16.length ≠ 0) f.uuids16IsComplete
    (hitem _ _ (by simp [fieldTable]))
  obtain ⟨complete32, hcomplete32, hkept32⟩ := advFlagDec_given r "uuids32_is_complete"
    (.build "invalid uuids32_is_complete value") (f.uuids32.length ≠ 0) f.uuids32IsComplete
    (hitem _ _ (by simp [fieldTable]))
  obtain ⟨complete128, hcomplete128, hkept128⟩ := advFlagDec_given r "uuids128_is_complete"
    (.build "invalid uuids128_is_complete value") (f.uuids128.length ≠ 0) f.uuids128IsComplete
    (hitem _ _ (by simp [fieldTable]))
  obtain ⟨completeName, hcompleteName, hkeptName⟩ := advFlagDec_given r "name_is_complete"
    (.buildRc "invalid name_is_complete value") (f.name.length ≠ 0) f.nameIsComplete
    (hitem _ _ (by simp [fieldTable]))
  obtain ⟨txPwrLvl, htxPwrLvl, hkeptTx⟩ := advIntDec_given r "tx_pwr_lvl" "invalid tx_pwr_lvl"
    INT8_MIN INT8_MAX f.txPwrLvlIsPresent f.txPwrLvl.toInt f.txPwrLvl.le_toInt f.txPwrLvl.toInt_le
    (hitem _ _ (by simp [fieldTable]))
  obtain ⟨itvlMin, itvlMax, hitvl, hkeptItvl⟩ := slaveItvlDec_given r f.slaveItvlRangeIsPresent
    f.slaveItvlMin f.slaveItvlMax (hitem _ _ (by simp [fieldTable]))
    (hitem _ _ (by simp [fieldTable]))
  obtain ⟨appearance, happearance, hkeptAppearance⟩ := advHalfDec_given r "appearance"
    "invalid appearance" f.appearanceIsPresent f.appearance (hitem _ _ (by simp [fieldTable]))
  obtain ⟨advItvl, hadvItvl, hkeptAdvItvl⟩ := advHalfDec_given r "adv_itvl" "invalid adv_itvl"
    f.advItvlIsPresent f.advItvl (hitem _ _ (by simp [fieldTable]))
  have htx : f.txPwrLvlIsPresent = true → Int8.ofInt txPwrLvl = f.txPwrLvl := by
    intro h
    rw [hkeptTx h, Int8.ofInt_toInt]
  refine ⟨{ f with
    uuids16IsComplete := complete16
    uuids32 := f.uuids32.filter (· ≤ 0xffff)
    uuids32IsComplete := complete32
    uuids128IsComplete := complete128
    nameIsComplete := completeName
    txPwrLvl := Int8.ofInt txPwrLvl
    slaveItvlMin := itvlMin
    slaveItvlMax := itvlMax
    appearance := UInt16.ofInt appearance
    advItvl := UInt16.ofInt advItvl }, ?_, ?_⟩
  · constructor
    case flags => exact advFlagsDec_given r f.flags (hitem _ _ (by simp [fieldTable]))
    case uuids16 =>
      exact arrUint16_read r _ _ _ (by decide) _ hf.uuids16 (hitem _ _ (by simp [fieldTable]))
    case uuids16IsComplete => exact hcomplete16
    case uuids32 =>
      exact arrUint32_read r _ _ _ (by decide) _ hf.uuids32 (hitem _ _ (by simp [fieldTable]))
    case uuids32IsComplete => exact hcomplete32
    case uuids128 =>
      have huuids := arrUuid_read r "uuids128" "invalid uuids128" uuidToStr hstr
        (BLE_HS_ADV_MAX_FIELD_SZ / 16) (by decide) f.uuids128 hf.uuids128
        (hitem _ _ (by simp [fieldTable]))
      have hvalues : f.uuids128 = (f.uuids128.map Uuid.u128).map (uuidValue r.junk.uuidValue) := by
        rw [List.map_map]
        exact (List.map_id _).symm
      exact ⟨_, huuids, hvalues⟩
    case uuids128IsComplete => exact hcomplete128
    case nameIsComplete => exact hcompleteName
    case txPwrLvl => exact ⟨txPwrLvl, htxPwrLvl, rfl⟩
    case slaveItvl => exact hitvl
    case publicTgtAddrs =>
      exact arrAddr_read r _ _ _ (by decide) _ hf.publicTgtAddrs
        (hitem _ _ (by simp [fieldTable]))
    case appearance => exact ⟨appearance, happearance, rfl⟩
    case advItvl => exact ⟨advItvl, hadvItvl, rfl⟩
    case name =>
      exact advTextDec_given r _ _ _ hf.nameText hf.name (hitem _ _ (by simp [fieldTable]))
    case uri =>
      exact advTextDec_given r _ _ _ hf.uriText hf.uri (hitem _ _ (by simp [fieldTable]))
    case svcDataUuid16 =>
      exact advBytesDec_given r _ _ _ hf.svcDataUuid16 (hitem _ _ (by simp [fieldTable]))
    case svcDataUuid32 =>
      exact advBytesDec_given r _ _ _ hf.svcDataUuid32 (hitem _ _ (by simp [fieldTable]))
    case svcDataUuid128 =>
      exact advBytesDec_given r _ _ _ hf.svcDataUuid128 (hitem _ _ (by simp [fieldTable]))
    case mfgData =>
      exact advBytesDec_given r _ _ _ hf.mfgData (hitem _ _ (by simp [fieldTable]))
  · constructor
    case uuids16IsComplete => exact hkept16
    case uuids32IsComplete =>
      exact fun h => hkept32 fun habsent => h (Nat.le_zero.mp (habsent ▸ hfewer))
    case uuids128IsComplete => exact hkept128
    case nameIsComplete => exact hkeptName
    case txPwrLvl => exact htx
    case slaveItvlRange => exact hkeptItvl
    case appearance => exact hkeptAppearance
    case advItvl => exact hkeptAdvItvl
    all_goals rfl

theorem advFields_read (uuidToStr : Uuid → Text)
    (hstr : ∀ value, uuidToStr (.u128 value) = canonicalUuid (.u128 value)) (f : AdvFieldsReq)
    (hf : Reportable f) (seq : UInt32) (junk : Junk) : ∃ req,
    (advFieldsReqRun ⟨.object (tableMembers (fieldTable uuidToStr f)), seq, junk⟩).result =
      .ok (gapAdvFields req) ∧
    SameFields { f with uuids32 := f.uuids32.filter (· ≤ 0xffff) } req := by
  obtain ⟨req, hdecoded, hsame⟩ := table_decoded uuidToStr hstr f hf
    ⟨.object (tableMembers (fieldTable uuidToStr f)), seq, junk⟩ (field_item uuidToStr f)
  refine ⟨req, ?_, hsame⟩
  rw [advFieldsReqRun_dec, Decoder.result_bind _ _ _ (advFieldsDec_of _ _ hdecoded)]
  rfl

theorem field_fits (f : AdvFieldsReq) (hf : Reportable f) (req : AdvFieldsReq)
    (hsame : SameFields { f with uuids32 := f.uuids32.filter (· ≤ 0xffff) } req) :
    ¬(BLE_HS_ADV_MAX_FIELD_SZ / 2 < req.uuids16.length ∨
      BLE_HS_ADV_MAX_FIELD_SZ / 4 < req.uuids32.length ∨
      BLE_HS_ADV_MAX_FIELD_SZ / 16 < req.uuids128.length) := by
  have hfewer := List.length_filter_le (· ≤ 0xffff) f.uuids32
  have h16 := hf.uuids16
  have h32 := hf.uuids32
  have h128 := hf.uuids128
  rw [hsame.uuids16, hsame.uuids32, hsame.uuids128]
  simp only [BLE_HS_ADV_MAX_FIELD_SZ]
  omega

-- The call shows the UUIDs of the request.
theorem gapAdvFields_uuids32 (req other : AdvFieldsReq)
    (hfits : ¬(BLE_HS_ADV_MAX_FIELD_SZ / 2 < req.uuids16.length ∨
      BLE_HS_ADV_MAX_FIELD_SZ / 4 < req.uuids32.length ∨
      BLE_HS_ADV_MAX_FIELD_SZ / 16 < req.uuids128.length))
    (h : gapAdvFields req = gapAdvFields other) : other.uuids32 = req.uuids32 := by
  have hcalls : ∀ r : AdvFieldsReq, ∃ answer,
      gapAdvFields r acceptingHost (Rsp.cleared .advFields 0) World.initial = .ok answer ∧
      answer.calls =
        if BLE_HS_ADV_MAX_FIELD_SZ / 2 < r.uuids16.length ∨
          BLE_HS_ADV_MAX_FIELD_SZ / 4 < r.uuids32.length ∨
          BLE_HS_ADV_MAX_FIELD_SZ / 16 < r.uuids128.length then []
        else [.hsAdvSetFields (advFieldsOf r)] := by
    intro r
    unfold gapAdvFields
    split_ifs <;> exact ⟨_, rfl, rfl⟩
  obtain ⟨first, hfirst, hcall⟩ := hcalls req
  obtain ⟨second, hsecond, hsame⟩ := hcalls other
  rw [h, hsecond] at hfirst
  obtain rfl := Except.ok.inj hfirst
  rw [hcall, if_neg hfits] at hsame
  split_ifs at hsame
  have hfields := HostCall.hsAdvSetFields.inj (List.head_eq_of_cons_eq hsame)
  exact (congrArg HsAdvFields.uuids32 hfields).symm

theorem readvertised_uuids32 (uuidToStr : Uuid → Text)
    (hstr : ∀ value, uuidToStr (.u128 value) = canonicalUuid (.u128 value)) (evt : ScanEvt)
    (hevt : Reportable evt.fields) (hread : Readvertises uuidToStr evt) :
    ∀ uuid ∈ evt.fields.uuids32, uuid ≤ 0xffff := by
  intro uuid hmem
  obtain ⟨other, hother, hsame⟩ := hread 0 zeroJunk
  obtain ⟨req, hreq, hsmall⟩ := advFields_read uuidToStr hstr evt.fields hevt 0 zeroJunk
  rw [fieldMembers_scanEvt, hreq] at hother
  have huuids := gapAdvFields_uuids32 req other (field_fits _ hevt req hsmall)
    (Except.ok.inj hother)
  rw [hsame.uuids32, hsmall.uuids32] at huuids
  rw [huuids] at hmem
  exact of_decide_eq_true (List.mem_filter.mp hmem).2

theorem readvertises_iff (uuidToStr : Uuid → Text)
    (hstr : ∀ value, uuidToStr (.u128 value) = canonicalUuid (.u128 value)) (evt : ScanEvt)
    (hevt : Reportable evt.fields) :
    Readvertises uuidToStr evt ↔ ∀ uuid ∈ evt.fields.uuids32, uuid ≤ 0xffff := by
  refine ⟨readvertised_uuids32 uuidToStr hstr evt hevt, ?_⟩
  intro hbounds seq junk
  obtain ⟨req, hreq, hsmall⟩ := advFields_read uuidToStr hstr evt.fields hevt seq junk
  refine ⟨req, ?_, ?_⟩
  · rw [fieldMembers_scanEvt]
    exact hreq
  · have hall : evt.fields.uuids32.filter (· ≤ 0xffff) = evt.fields.uuids32 := by
      rw [List.filter_eq_self]
      intro uuid hmem
      exact decide_eq_true (hbounds uuid hmem)
    rw [hall] at hsmall
    exact hsmall

-- A report with every field, and with one UUID of 32 bits.
def fullReport (uuid : UInt32) : ScanEvt where
  eventType := 0
  addr := BleAddr.zero
  rssi := -60
  data := []
  directAddr := BleAddr.zero
  fields :=
    { flags := 6
      uuids16 := [0x180d]
      uuids16IsComplete := true
      uuids32 := [uuid]
      uuids32IsComplete := false
      uuids128 := [Vector.replicate 16 0x1a]
      uuids128IsComplete := false
      name := ascii "pulse"
      nameIsComplete := true
      txPwrLvl := -4
      txPwrLvlIsPresent := true
      slaveItvlMin := 6
      slaveItvlMax := 3200
      slaveItvlRangeIsPresent := true
      svcDataUuid16 := [0x0d, 0x18, 0]
      publicTgtAddrs := [Vector.replicate 6 0x0a]
      appearance := 833
      appearanceIsPresent := true
      advItvl := 160
      advItvlIsPresent := true
      svcDataUuid32 := [1, 2, 3, 4]
      svcDataUuid128 := List.replicate 16 7
      uri := ascii "/a"
      mfgData := [0xff, 0xff] }

theorem fullReport_reportable (uuid : UInt32) : Reportable (fullReport uuid).fields := by
  constructor <;> simp [fullReport, BLE_HS_ADV_MAX_FIELD_SZ, ascii]

theorem small_uuid_readvertised : Readvertises canonicalUuid (fullReport 0x1234) :=
  (readvertises_iff canonicalUuid (fun _ => rfl) (fullReport 0x1234)
    (fullReport_reportable 0x1234)).mpr fun uuid hmem => by
      rw [List.mem_singleton.mp hmem]
      decide

-- The UUID is left out of the request, which is accepted all the same.
theorem large_uuid_lost :
    Reportable (fullReport 0x10000).fields ∧
    (∃ req, (advFieldsReqRun
        ⟨.object (fieldMembers (scanEvtEnc canonicalUuid (fullReport 0x10000))), 1,
          zeroJunk⟩).result = .ok (gapAdvFields req) ∧ req.uuids32 = []) ∧
    ¬Readvertises canonicalUuid (fullReport 0x10000) := by
  have hreport := fullReport_reportable 0x10000
  refine ⟨hreport, ?_, ?_⟩
  · obtain ⟨req, hreq, hsmall⟩ := advFields_read canonicalUuid (fun _ => rfl) _ hreport 1 zeroJunk
    rw [fieldMembers_scanEvt]
    exact ⟨req, hreq, hsmall.uuids32⟩
  · intro hread
    have hbound := readvertised_uuids32 canonicalUuid (fun _ => rfl) _ hreport hread 0x10000
      (List.mem_singleton.mpr rfl)
    exact absurd hbound (by decide)

end Blehostd
