import Blehostd.Events.Scan.Fields

namespace Blehostd

open Counted

-- The fields fit into the members of the event, and they are there to be read. No NULL
-- pointer has elements.
structure WithinScanEvt (f : HsFields) : Prop where
  uuids16 : f.uuids16.Valid ∧ f.uuids16.count.toNat ≤ BLE_HS_ADV_MAX_FIELD_SZ / 2
  uuids32 : f.uuids32.Valid ∧ f.uuids32.count.toNat ≤ BLE_HS_ADV_MAX_FIELD_SZ / 4
  uuids128 : f.uuids128.Valid ∧ f.uuids128.count.toNat ≤ BLE_HS_ADV_MAX_FIELD_SZ / 16
  name : f.name.Valid ∧ f.name.count.toNat ≤ BLE_HS_ADV_MAX_FIELD_SZ
  slaveItvlRange : ∀ range, f.slaveItvlRange = some range → 4 ≤ range.length
  svcDataUuid16 : f.svcDataUuid16.Valid ∧ f.svcDataUuid16.count.toNat ≤ BLE_HS_ADV_MAX_FIELD_SZ
  publicTgtAddr : f.publicTgtAddr.ValidRows 6 ∧
    f.publicTgtAddr.count.toNat ≤ BLE_HS_ADV_MAX_FIELD_SZ / 6
  svcDataUuid32 : f.svcDataUuid32.Valid ∧ f.svcDataUuid32.count.toNat ≤ BLE_HS_ADV_MAX_FIELD_SZ
  svcDataUuid128 : f.svcDataUuid128.Valid ∧
    f.svcDataUuid128.count.toNat ≤ BLE_HS_ADV_MAX_FIELD_SZ
  uri : f.uri.Valid ∧ f.uri.count.toNat ≤ BLE_HS_ADV_MAX_FIELD_SZ
  mfgData : f.mfgData.Valid ∧ f.mfgData.count.toNat ≤ BLE_HS_ADV_MAX_FIELD_SZ

theorem putBe16_be16 (high low : UInt8) : putBe16 (be16 high low) = [high, low] := by
  have hhigh := high.toNat_lt
  have hlow := low.toNat_lt
  have hvalue : (be16 high low).toNat = high.toNat * 256 + low.toNat :=
    UInt16.toNat_ofNat_of_lt' (by simp only [UInt16.size]; omega)
  have hfirst : (be16 high low >>> 8).toUInt8 = high := by
    rw [← UInt8.toNat_inj, UInt16.toNat_toUInt8, UInt16.toNat_shiftRight, hvalue]
    show (high.toNat * 256 + low.toNat) >>> 8 % 256 = high.toNat
    rw [Nat.shiftRight_eq_div_pow]
    omega
  have hsecond : (be16 high low).toUInt8 = low := by
    rw [← UInt8.toNat_inj, UInt16.toNat_toUInt8, hvalue]
    omega
  rw [putBe16, hfirst, hsecond]

-- The range comes back from the two numbers of the event.
theorem scanItvlRange_value (evt : AdvMembers) (hevt : evt.slaveItvlRangeIsPresent = false)
    (range : Option (List UInt8)) (hrange : ∀ cells, range = some cells → 4 ≤ cells.length) :
    ∃ min max present, scanItvlRange evt range = some (min, max, present) ∧
      (if present then putBe16 min ++ putBe16 max else []) = (range.getD []).take 4 := by
  cases range with
  | none => exact ⟨_, _, _, rfl, by simp [hevt]⟩
  | some cells =>
      have hlength := hrange cells rfl
      match cells, hlength with
      | a :: b :: c :: d :: rest, _ =>
          refine ⟨be16 a b, be16 c d, true, rfl, ?_⟩
          simp [putBe16_be16]

-- A flag of completeness is copied with the name, and a name that is not there is empty.
theorem nameIsComplete_value (name : CountedPtr UInt8) (isComplete : Bool) :
    (0 < name.list.length && (if name.ptr.isSome then isComplete else false)) =
      (0 < name.list.length && isComplete) := by
  cases hptr : name.ptr with
  | none => simp [CountedPtr.list, hptr]
  | some cells => simp

structure WithinArrays (m : AdvMembers) : Prop where
  uuids16 : m.uuids16.count.toNat ≤ BLE_HS_ADV_MAX_FIELD_SZ / 2
  uuids32 : m.uuids32.count.toNat ≤ BLE_HS_ADV_MAX_FIELD_SZ / 4
  uuids128 : m.uuids128.count.toNat ≤ BLE_HS_ADV_MAX_FIELD_SZ / 16
  publicTgtAddrs : m.publicTgtAddrs.count.toNat ≤ BLE_HS_ADV_MAX_FIELD_SZ / 6

-- The members of the event hold what advFieldsOf makes the fields of again.
theorem sendScanFields_req (f : HsFields) (hf : WithinScanEvt f) :
    ∃ m, sendScanFields f AdvMembers.zero = some m ∧ WithinArrays m ∧
      advFieldsOf m.req = f.value ∧ m.counts = f.counts := by
  obtain ⟨uuids16, huuids16, hlist16, hcount16⟩ :=
    copyList_list f.uuids16 AdvMembers.zero.uuids16 hf.uuids16.1 hf.uuids16.2
  obtain ⟨uuids32, huuids32, hlist32, hcount32⟩ :=
    copyList_list f.uuids32 AdvMembers.zero.uuids32 hf.uuids32.1 hf.uuids32.2
  obtain ⟨uuids128, huuids128, hlist128, hcount128⟩ :=
    copyList_list f.uuids128 AdvMembers.zero.uuids128 hf.uuids128.1 hf.uuids128.2
  obtain ⟨name, hname, hlistName, hcountName⟩ :=
    copyData_list f.name AdvMembers.zero.name hf.name.1 hf.name.2 rfl
  obtain ⟨min, max, present, hitvl, hbytes⟩ :=
    scanItvlRange_value AdvMembers.zero rfl f.slaveItvlRange hf.slaveItvlRange
  obtain ⟨data16, hdata16, hlistData16, hcountData16⟩ :=
    copyData_list f.svcDataUuid16 AdvMembers.zero.svcDataUuid16 hf.svcDataUuid16.1
      hf.svcDataUuid16.2 rfl
  obtain ⟨addrs, haddrs, hlistAddrs, hcountAddrs⟩ :=
    copyRows_list (by decide) f.publicTgtAddr AdvMembers.zero.publicTgtAddrs hf.publicTgtAddr.1
      hf.publicTgtAddr.2
  obtain ⟨data32, hdata32, hlistData32, hcountData32⟩ :=
    copyData_list f.svcDataUuid32 AdvMembers.zero.svcDataUuid32 hf.svcDataUuid32.1
      hf.svcDataUuid32.2 rfl
  obtain ⟨data128, hdata128, hlistData128, hcountData128⟩ :=
    copyData_list f.svcDataUuid128 AdvMembers.zero.svcDataUuid128 hf.svcDataUuid128.1
      hf.svcDataUuid128.2 rfl
  obtain ⟨uri, huri, hlistUri, hcountUri⟩ :=
    copyData_list f.uri AdvMembers.zero.uri hf.uri.1 hf.uri.2 rfl
  obtain ⟨mfgData, hmfgData, hlistMfgData, hcountMfgData⟩ :=
    copyData_list f.mfgData AdvMembers.zero.mfgData hf.mfgData.1 hf.mfgData.2 rfl
  simp only [sendScanFields, huuids16, huuids32, huuids128, hname, hitvl, hdata16, haddrs,
    hdata32, hdata128, huri, hmfgData, bind, Option.bind]
  refine ⟨_, rfl, ⟨?_, ?_, ?_, ?_⟩, ?_, ?_⟩
  · exact hcount16 ▸ hf.uuids16.2
  · exact hcount32 ▸ hf.uuids32.2
  · exact hcount128 ▸ hf.uuids128.2
  · exact hcountAddrs ▸ hf.publicTgtAddr.2
  · have hcomplete := nameIsComplete_value f.name f.nameIsComplete
    simp only [advFieldsOf, AdvMembers.req, HsFields.value, hlist16, hlist32, hlist128, hlistName,
      hbytes, hlistData16, hlistAddrs, hlistData32, hlistData128, hlistUri, hlistMfgData]
    rw [← hcomplete]
    rfl
  · simp only [AdvMembers.counts, HsFields.counts, hcount16, hcount32, hcount128, hcountName,
      hcountData16, hcountAddrs, hcountData32, hcountData128, hcountUri, hcountMfgData]

theorem pointToLocal_list {α : Type} {n m : Nat} (c : Counted α n) (buf : Vector α m)
    (hroom : c.count.toNat ≤ n) (hbuf : c.count.toNat ≤ m) :
    ∃ p, pointToLocal c buf = .ok p ∧ p.list = c.list ∧ p.count = c.count := by
  obtain ⟨p, hcopy, hlist⟩ := pointToCopy_list c buf hroom hbuf
  have hfits : ¬m < c.count.toNat := by omega
  exact ⟨p, by simp only [pointToLocal, if_neg hfits, hcopy], hlist⟩

theorem count_pos {α : Type} {n : Nat} (c : Counted α n) (hn : 0 < n) :
    decide (0 < c.count) = decide (0 < c.list.length) := by
  apply decide_eq_decide.mpr
  rw [Counted.list, List.length_take, Vector.length_toList, UInt8.lt_iff_toNat_lt,
    UInt8.toNat_zero]
  omega

-- bhd_gap_adv_fields on its arrays and pointers does what advFieldsOf says of their lists.
theorem advFieldsInto_value (m : AdvMembers) (locals : AdvLocals) (hm : WithinArrays m) :
    ∃ f, advFieldsInto m locals = .ok f ∧ f.value = advFieldsOf m.req ∧ f.counts = m.counts := by
  obtain ⟨uuids16, huuids16, hlist16, hcount16⟩ :=
    pointToLocal_list m.uuids16 locals.uuids16 hm.uuids16 hm.uuids16
  obtain ⟨uuids32, huuids32, hlist32, hcount32⟩ :=
    pointToLocal_list m.uuids32 locals.uuids32 hm.uuids32 hm.uuids32
  obtain ⟨uuids128, huuids128, hlist128, hcount128⟩ :=
    pointToLocal_list m.uuids128 locals.uuids128 hm.uuids128 hm.uuids128
  have hrows := pointToRows_rows (by decide) m.publicTgtAddrs hm.publicTgtAddrs
  have hrange : ((if m.slaveItvlRangeIsPresent then
      some (putBe16 m.slaveItvlMin ++ putBe16 m.slaveItvlMax) else none).getD []).take 4 =
      if m.slaveItvlRangeIsPresent then putBe16 m.slaveItvlMin ++ putBe16 m.slaveItvlMax
      else [] := by
    split_ifs <;> rfl
  simp only [advFieldsInto, huuids16, huuids32, huuids128, bind, Except.bind]
  refine ⟨_, rfl, ?_, ?_⟩
  · simp only [HsFields.value, advFieldsOf, AdvMembers.req, pointTo_list, hlist16, hlist32,
      hlist128, hrows, hrange, count_pos m.uuids16 (by decide), count_pos m.uuids32 (by decide),
      count_pos m.uuids128 (by decide), count_pos m.name (by decide), Bool.and_self_left]
    rfl
  · simp only [HsFields.counts, AdvMembers.counts, hcount16, hcount32, hcount128, pointTo_count,
      pointToRows_count]

-- The members of the event are copied to those of the request as they are.
theorem conversions_inverse (f : HsFields) (hf : WithinScanEvt f) (locals : AdvLocals) :
    ∃ m f', sendScanFields f AdvMembers.zero = some m ∧ advFieldsInto m locals = .ok f' ∧
      f'.value = f.value ∧ f'.counts = f.counts := by
  obtain ⟨m, hsend, hm, hvalue, hcounts⟩ := sendScanFields_req f hf
  obtain ⟨f', hgap, hvalue', hcounts'⟩ := advFieldsInto_value m locals hm
  exact ⟨m, f', hsend, hgap, hvalue'.trans hvalue, hcounts'.trans hcounts⟩

def fullFields : HsFields :=
  { flags := 6
    uuids16 := ⟨some [0x180f, 0x1811], 2⟩
    uuids16IsComplete := true
    uuids32 := .null
    uuids32IsComplete := true
    uuids128 := ⟨some [#v[1, 2, 3, 4, 5, 6, 7, 8, 9, 10, 11, 12, 13, 14, 15, 16]], 1⟩
    uuids128IsComplete := false
    name := ⟨some (ascii "blehostd"), 8⟩
    nameIsComplete := true
    txPwrLvl := -7
    txPwrLvlIsPresent := true
    slaveItvlRange := some [0x00, 0x06, 0x0c, 0x80]
    svcDataUuid16 := .null
    publicTgtAddr := ⟨some [1, 2, 3, 4, 5, 6, 7, 8, 9, 10, 11, 12], 2⟩
    appearance := 0
    appearanceIsPresent := false
    advItvl := 256
    advItvlIsPresent := true
    svcDataUuid32 := .null
    svcDataUuid128 := .null
    uri := .null
    mfgData := ⟨some [0xff, 0xff, 0x00], 3⟩ }

def zeroLocals : AdvLocals :=
  ⟨Vector.replicate _ 0, Vector.replicate _ 0, Vector.replicate _ (Vector.replicate 16 0)⟩

theorem fullFields_within : WithinScanEvt fullFields := by
  constructor
  case slaveItvlRange =>
    intro range hrange
    obtain rfl := Option.some.inj hrange
    decide
  case publicTgtAddr =>
    unfold CountedPtr.ValidRows
    decide
  all_goals
    unfold CountedPtr.Valid
    decide

theorem fullFields_inverse : ∃ m f', sendScanFields fullFields AdvMembers.zero = some m ∧
    advFieldsInto m zeroLocals = .ok f' ∧ f'.value = fullFields.value ∧
      f'.counts = fullFields.counts :=
  conversions_inverse fullFields fullFields_within zeroLocals

end Blehostd
