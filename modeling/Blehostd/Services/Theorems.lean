import Mathlib.Data.List.Forall2
import Blehostd.Services.Memory

namespace Blehostd

section Specification

variable (parent : Json)

-- A member that is an integer within its bounds.
def IntField (name : String) (maxval val : Int) : Prop :=
  parent.getObjectItem name = some (.number val) ∧ 0 ≤ val ∧ val ≤ maxval

-- A member that is an array, or no such member, which counts as an empty array.
def ListField (name : String) (items : List Json) : Prop :=
  parent.getObjectItem name = some (.array items) ∨
    parent.getObjectItem name = none ∧ items = []

structure DscOf (dsc : Gatts.Dsc) : Prop where
  uuid : ∃ uuid, jsonUuid parent "uuid" = .ok uuid ∧ dsc.uuid = .known uuid
  attFlags : IntField parent "att_flags" UINT8_MAX dsc.attFlags.toNat
  minKeySize : IntField parent "min_key_size" UINT8_MAX dsc.minKeySize.toNat

structure ChrOf (chr : Gatts.Chr) : Prop where
  uuid : jsonUuid parent "uuid" = .ok chr.uuid
  flags : IntField parent "flags" UINT16_MAX chr.flags.toNat
  minKeySize : IntField parent "min_key_size" UINT8_MAX chr.minKeySize.toNat
  dscs : ∃ items, ListField parent "descriptors" items ∧ List.Forall₂ DscOf items chr.dscs

structure SvcOf (svc : Gatts.Svc) : Prop where
  type : jsonSvcType parent "type" = .ok svc.type
  uuid : jsonUuid parent "uuid" = .ok svc.uuid
  chrs : ∃ items, ListField parent "characteristics" items ∧ List.Forall₂ ChrOf items svc.chrs

-- The fields that are not missing and not invalid.
structure ValidDsc : Prop where
  uuid : ∃ uuid, jsonUuid parent "uuid" = .ok uuid
  attFlags : ∃ val, IntField parent "att_flags" UINT8_MAX val
  minKeySize : ∃ val, IntField parent "min_key_size" UINT8_MAX val

structure ValidChrFields : Prop where
  uuid : ∃ uuid, jsonUuid parent "uuid" = .ok uuid
  flags : ∃ val, IntField parent "flags" UINT16_MAX val
  minKeySize : ∃ val, IntField parent "min_key_size" UINT8_MAX val

structure ValidChr : Prop where
  fields : ValidChrFields parent
  dscs : ∃ items, ListField parent "descriptors" items ∧ ∀ item ∈ items, ValidDsc item

structure ValidSvcFields : Prop where
  type : ∃ type, jsonSvcType parent "type" = .ok type
  uuid : ∃ uuid, jsonUuid parent "uuid" = .ok uuid

structure ValidSvc : Prop where
  fields : ValidSvcFields parent
  chrs : ∃ items, ListField parent "characteristics" items ∧ ∀ item ∈ items, ValidChr item

-- The decoder comes to a descriptor: everything before it is valid.
def ChrReachesDsc : Prop :=
  ValidChrFields parent ∧ ∃ items, ListField parent "descriptors" items ∧ items ≠ []

def ReachesDsc : Prop :=
  ValidSvcFields parent ∧ ∃ before item after,
    ListField parent "characteristics" (before ++ item :: after) ∧
      (∀ chr ∈ before, ValidChr chr) ∧ ChrReachesDsc item

-- What the caller of bhd_json_svc may rely on.
structure FaithfulSvc (d : Filling Gatts.Svc) : Prop where
  decoded : ∀ svc, d.result = .ok svc → SvcOf parent svc
  refused : (∃ e, d.result = .error e) ↔ ¬ValidSvc parent
  inside : ∀ w ∈ d.lookups, w.Inside

end Specification

theorem ListField.unique {parent : Json} {name : String} {items others : List Json}
    (h : ListField parent name items) (hother : ListField parent name others) :
    items = others := by
  rcases h with hitems | ⟨hnone, rfl⟩ <;> rcases hother with hothers | ⟨hnone', rfl⟩
  · simpa [hitems] using hothers
  · simp [hitems] at hnone'
  · simp [hnone] at hothers
  · rfl

theorem jsonArr_enoent (parent : Json) (name : String) :
    jsonArr parent name = .error .enoent ↔ parent.getObjectItem name = none := by
  unfold jsonArr member
  cases hitem : parent.getObjectItem name with
  | none => simp
  | some item => cases item <;> simp

theorem jsonArr_ok (parent : Json) (name : String) (items : List Json) :
    jsonArr parent name = .ok items ↔ parent.getObjectItem name = some (.array items) := by
  unfold jsonArr member
  cases hitem : parent.getObjectItem name with
  | none => simp
  | some item => cases item <;> simp

theorem wantArr_ok (parent : Json) (name : String) (exit : ErrCode → SvcErr)
    (items : List Json) :
    (∃ arr, (want parent name jsonArr exit).result = .ok arr ∧ arr.getD [] = items) ↔
      ListField parent name items := by
  unfold ListField
  simp only [want_ok_iff, jsonArr_ok, jsonArr_enoent]
  constructor
  · rintro ⟨arr, ⟨found, hfound, rfl⟩ | ⟨hnone, rfl⟩, rfl⟩
    · exact Or.inl hfound
    · exact Or.inr ⟨hnone, rfl⟩
  · rintro (hfound | ⟨hnone, rfl⟩)
    · exact ⟨some items, Or.inl ⟨items, hfound, rfl⟩, rfl⟩
    · exact ⟨none, Or.inr ⟨hnone, rfl⟩, rfl⟩

-- A number in the range of its variable is stored without a change.
theorem IntField.byte {parent : Json} {name : String} {val : Int}
    (h : IntField parent name UINT8_MAX val) :
    IntField parent name UINT8_MAX (UInt8.ofInt val).toNat := by
  rwa [toNat_ofInt_byte val h.2.1 h.2.2]

theorem IntField.half {parent : Json} {name : String} {val : Int}
    (h : IntField parent name UINT16_MAX val) :
    IntField parent name UINT16_MAX (UInt16.ofInt val).toNat := by
  rwa [toNat_ofInt_half val h.2.1 h.2.2]

theorem uint8_field (parent : Json) (name : String) (stored : UInt8) :
    (∃ val, jsonInt 0 UINT8_MAX parent name = .ok val ∧ UInt8.ofInt val = stored) ↔
      IntField parent name UINT8_MAX stored.toNat := by
  simp only [jsonInt_ok]
  constructor
  · rintro ⟨val, hval, rfl⟩
    exact IntField.byte hval
  · intro h
    exact ⟨stored.toNat, h, ofInt_byte stored⟩

theorem uint16_field (parent : Json) (name : String) (stored : UInt16) :
    (∃ val, jsonInt 0 UINT16_MAX parent name = .ok val ∧ UInt16.ofInt val = stored) ↔
      IntField parent name UINT16_MAX stored.toNat := by
  simp only [jsonInt_ok]
  constructor
  · rintro ⟨val, hval, rfl⟩
    exact IntField.half hval
  · intro h
    exact ⟨stored.toNat, h, ofInt_half stored⟩

theorem jsonDsc_ok (parent : Json) (dsc : Gatts.Dsc) :
    (jsonDsc parent).result = .ok dsc ↔ DscOf parent dsc := by
  unfold jsonDsc
  simp only [Decoder.bind_result_ok, need_ok_iff]
  constructor
  · rintro ⟨uuid, huuid, attFlags, hflags, minKeySize, hsize, hdsc⟩
    obtain rfl := Except.ok.inj hdsc
    exact ⟨⟨uuid, huuid, rfl⟩, (uint8_field _ _ _).mp ⟨attFlags, hflags, rfl⟩,
      (uint8_field _ _ _).mp ⟨minKeySize, hsize, rfl⟩⟩
  · rintro ⟨⟨uuid, huuid, hknown⟩, hflags, hsize⟩
    obtain ⟨attFlags, hattFlags, hstored⟩ := (uint8_field _ _ _).mpr hflags
    obtain ⟨minKeySize, hminKeySize, hstored'⟩ := (uint8_field _ _ _).mpr hsize
    refine ⟨uuid, huuid, attFlags, hattFlags, minKeySize, hminKeySize, ?_⟩
    rw [← hknown, hstored, hstored']
    rfl

theorem validDsc_iff (parent : Json) :
    (∃ dsc, (jsonDsc parent).result = .ok dsc) ↔ ValidDsc parent := by
  simp only [jsonDsc_ok]
  constructor
  · rintro ⟨dsc, ⟨uuid, huuid, _⟩, hflags, hsize⟩
    exact ⟨⟨uuid, huuid⟩, ⟨_, hflags⟩, ⟨_, hsize⟩⟩
  · rintro ⟨⟨uuid, huuid⟩, ⟨attFlags, hflags⟩, ⟨minKeySize, hsize⟩⟩
    exact ⟨⟨.known uuid, UInt8.ofInt attFlags, UInt8.ofInt minKeySize⟩,
      ⟨uuid, huuid, rfl⟩, IntField.byte hflags, IntField.byte hsize⟩

section Decoding

variable (parent : Json)

theorem jsonChr_ok (junk : Nat → Gatts.Dsc) (chr : Gatts.Chr) :
    (jsonChr junk parent).result = .ok chr ↔
      jsonUuid parent "uuid" = .ok chr.uuid ∧
      IntField parent "flags" UINT16_MAX chr.flags.toNat ∧
      IntField parent "min_key_size" UINT8_MAX chr.minKeySize.toNat ∧
      ∃ items, ListField parent "descriptors" items ∧ (∀ item ∈ items, ValidDsc item) ∧
        chr.dscs = (List.range items.length).map junk := by
  unfold jsonChr
  simp only [Decoder.bind_result_ok, need_ok_iff]
  constructor
  · rintro ⟨uuid, huuid, flags, hflags, minKeySize, hsize, arr, harr, dscs, hdscs, hchr⟩
    obtain rfl := Except.ok.inj hchr
    have hvalid : ∀ item ∈ arr.getD [], ValidDsc item := by
      intro item hmem
      obtain ⟨_, dsc, hdsc⟩ := Decoder.each_all _ _ _ _ hdscs item hmem
      exact (validDsc_iff item).mp ⟨dsc, hdsc⟩
    exact ⟨huuid, (uint16_field _ _ _).mp ⟨flags, hflags, rfl⟩,
      (uint8_field _ _ _).mp ⟨minKeySize, hsize, rfl⟩, arr.getD [],
      (wantArr_ok _ _ _ _).mp ⟨arr, harr, rfl⟩, hvalid, rfl⟩
  · rintro ⟨huuid, hflags, hsize, items, hitems, hvalid, hdscs⟩
    obtain ⟨flags, hflags, hstored⟩ := (uint16_field _ _ _).mpr hflags
    obtain ⟨minKeySize, hsize, hstored'⟩ := (uint8_field _ _ _).mpr hsize
    obtain ⟨arr, harr, rfl⟩ := (wantArr_ok _ _ _ _).mpr hitems
    obtain ⟨decoded, hdecoded⟩ := Decoder.each_total (fun _ item => jsonDsc item) 0 (arr.getD [])
      fun _ item hmem => (validDsc_iff item).mpr (hvalid item hmem)
    refine ⟨chr.uuid, huuid, flags, hflags, minKeySize, hsize, arr, harr, decoded, hdecoded, ?_⟩
    rw [← hdscs, hstored, hstored']
    rfl

theorem validChr_iff (junk : Nat → Gatts.Dsc) :
    (∃ chr, (jsonChr junk parent).result = .ok chr) ↔ ValidChr parent := by
  simp only [jsonChr_ok]
  constructor
  · rintro ⟨chr, huuid, hflags, hsize, items, hitems, hvalid, _⟩
    exact ⟨⟨⟨_, huuid⟩, ⟨_, hflags⟩, ⟨_, hsize⟩⟩, ⟨items, hitems, hvalid⟩⟩
  · rintro ⟨⟨⟨uuid, huuid⟩, ⟨flags, hflags⟩, ⟨minKeySize, hsize⟩⟩, ⟨items, hitems, hvalid⟩⟩
    exact ⟨⟨uuid, UInt16.ofInt flags, UInt8.ofInt minKeySize,
      (List.range items.length).map junk⟩, huuid,
      IntField.half hflags, IntField.byte hsize, items, hitems, hvalid, rfl⟩

-- A characteristic without descriptors is decoded as it should be.
theorem chrOf_of_ok (junk : Nat → Gatts.Dsc) (chr : Gatts.Chr)
    (hchr : (jsonChr junk parent).result = .ok chr) (hreaches : ¬ChrReachesDsc parent) :
    ChrOf parent chr := by
  obtain ⟨huuid, hflags, hsize, items, hitems, _, hdscs⟩ := (jsonChr_ok parent junk chr).mp hchr
  have hnone : items = [] := by
    by_contra hsome
    exact hreaches ⟨⟨⟨_, huuid⟩, ⟨_, hflags⟩, ⟨_, hsize⟩⟩, items, hitems, hsome⟩
  subst hnone
  refine ⟨huuid, hflags, hsize, [], hitems, ?_⟩
  rw [hdscs]
  exact .nil

theorem jsonSvc_ok (junk : Nat → Nat → Gatts.Dsc) (svc : Gatts.Svc)
    (hsvc : (jsonSvc junk parent).result = .ok svc) :
    jsonSvcType parent "type" = .ok svc.type ∧ jsonUuid parent "uuid" = .ok svc.uuid ∧
      ∃ items, ListField parent "characteristics" items ∧ (∀ item ∈ items, ValidChr item) ∧
        List.Forall₂ (fun item chr => item ∈ items ∧ ∃ ci,
          (jsonChr (junk ci) item).result = .ok chr) items svc.chrs := by
  unfold jsonSvc at hsvc
  simp only [Decoder.bind_result_ok, need_ok_iff] at hsvc
  obtain ⟨type, htype, uuid, huuid, arr, harr, chrs, hchrs, hsvc⟩ := hsvc
  obtain rfl := Except.ok.inj hsvc
  have hvalid : ∀ item ∈ arr.getD [], ValidChr item := by
    intro item hmem
    obtain ⟨ci, chr, hchr⟩ := Decoder.each_all _ _ _ _ hchrs item hmem
    exact (validChr_iff item (junk ci)).mp ⟨chr, hchr⟩
  exact ⟨htype, huuid, arr.getD [], (wantArr_ok _ _ _ _).mp ⟨arr, harr, rfl⟩, hvalid,
    Decoder.each_related _ _ _ _ hchrs⟩

theorem validSvc_iff (junk : Nat → Nat → Gatts.Dsc) :
    (∃ svc, (jsonSvc junk parent).result = .ok svc) ↔ ValidSvc parent := by
  constructor
  · rintro ⟨svc, hsvc⟩
    obtain ⟨htype, huuid, items, hitems, hvalid, _⟩ := jsonSvc_ok parent junk svc hsvc
    exact ⟨⟨⟨_, htype⟩, ⟨_, huuid⟩⟩, items, hitems, hvalid⟩
  · rintro ⟨⟨⟨type, htype⟩, ⟨uuid, huuid⟩⟩, ⟨items, hitems, hvalid⟩⟩
    obtain ⟨arr, harr, rfl⟩ := (wantArr_ok parent _ (svcErr "invalid characteristics") _).mpr hitems
    obtain ⟨chrs, hchrs⟩ := Decoder.each_total (fun ci item => jsonChr (junk ci) item) 0
      (arr.getD []) fun ci item hmem => (validChr_iff item (junk ci)).mpr (hvalid item hmem)
    unfold jsonSvc
    simp only [Decoder.bind_result_ok, need_ok_iff]
    exact ⟨_, type, htype, uuid, huuid, arr, harr, chrs, hchrs, rfl⟩

theorem svcOf_of_ok (junk : Nat → Nat → Gatts.Dsc) (svc : Gatts.Svc)
    (hsvc : (jsonSvc junk parent).result = .ok svc) (hreaches : ¬ReachesDsc parent) :
    SvcOf parent svc := by
  obtain ⟨htype, huuid, items, hitems, hvalid, hchrs⟩ := jsonSvc_ok parent junk svc hsvc
  refine ⟨htype, huuid, items, hitems, hchrs.imp ?_⟩
  rintro item chr ⟨hmem, ci, hchr⟩
  apply chrOf_of_ok item (junk ci) chr hchr
  intro hchrReaches
  obtain ⟨before, after, rfl⟩ := List.append_of_mem hmem
  exact hreaches ⟨⟨⟨_, htype⟩, ⟨_, huuid⟩⟩, before, item, after, hitems,
    fun other hother => hvalid other (List.mem_append_left _ hother), hchrReaches⟩

end Decoding

-- The blocks change nothing in what the decoders return: the slots below
-- num_dscs keep their junk, and every characteristic stays in its own slot.
theorem fillDscs_agrees (numDscs i : Nat) (items : List Json) (dscs : Nat → Gatts.Dsc) :
    Decoder.Agree (fun filled _ => ∀ j < numDscs, filled j = dscs j)
      (fillDscs numDscs items dscs) (Decoder.each (fun _ item => jsonDsc item) i items) := by
  induction items generalizing i dscs with
  | nil => exact Decoder.agree_pure _ _ fun _ _ => rfl
  | cons item rest ih =>
      apply Decoder.agree_look_bind
      apply Decoder.agree_bind_silent
      intro dsc
      apply Decoder.agree_map
      apply (ih (i + 1) (Function.update dscs numDscs dsc)).mono
      intro filled _ hfilled j hj
      rw [hfilled j hj, Function.update_of_ne (Nat.ne_of_lt hj)]

theorem fillChr_agrees (junk : Nat → Gatts.Dsc) (parent : Json) :
    Decoder.Agree Eq (fillChr junk parent) (jsonChr junk parent) := by
  apply Decoder.agree_bind_silent
  intro uuid
  apply Decoder.agree_bind_silent
  intro flags
  apply Decoder.agree_bind_silent
  intro minKeySize
  apply Decoder.agree_bind_silent
  intro arr
  apply Decoder.agree_bind _ _ _ _ (fillDscs_agrees _ _ _ _)
  intro filled _ hfilled
  apply Decoder.agree_pure
  congr 1
  apply List.map_congr_left
  intro j hj
  exact hfilled j (List.mem_range.mp hj)

theorem fillChrs_agrees (junk : Nat → Nat → Gatts.Dsc) (numChrs ci : Nat) (items : List Json)
    (chrs : Nat → Gatts.Chr) :
    Decoder.Agree (fun filled decoded => decoded.length = items.length ∧
        (∀ j < ci, filled j = chrs j) ∧
        ∀ i chr, decoded[i]? = some chr → filled (ci + i) = chr)
      (fillChrs junk numChrs ci items chrs)
      (Decoder.each (fun ci item => jsonChr (junk ci) item) ci items) := by
  induction items generalizing ci chrs with
  | nil =>
      apply Decoder.agree_pure
      exact ⟨rfl, fun _ _ => rfl, by simp⟩
  | cons item rest ih =>
      apply Decoder.agree_look_bind
      apply Decoder.agree_bind _ _ _ _ (fillChr_agrees (junk ci) item)
      rintro chr _ rfl
      apply Decoder.agree_map
      apply (ih (ci + 1) (Function.update chrs ci chr)).mono
      rintro filled decoded ⟨hlength, hkept, hdecoded⟩
      refine ⟨by simp [hlength], ?_, ?_⟩
      · intro j hj
        rw [hkept j (Nat.lt_succ_of_lt hj), Function.update_of_ne (Nat.ne_of_lt hj)]
      · intro i other hother
        cases i with
        | zero =>
            obtain rfl := Option.some.inj hother
            rw [Nat.add_zero, hkept ci (Nat.lt_succ_self ci), Function.update_self]
        | succ i =>
            rw [← Nat.succ_add_eq_add_succ]
            exact hdecoded i other hother

theorem fillSvc_agrees (junkChrs : Nat → Gatts.Chr) (junk : Nat → Nat → Gatts.Dsc)
    (parent : Json) :
    Decoder.Agree Eq (fillSvc junkChrs junk parent) (jsonSvc junk parent) := by
  apply Decoder.agree_bind_silent
  intro type
  apply Decoder.agree_bind_silent
  intro uuid
  apply Decoder.agree_bind_silent
  intro arr
  apply Decoder.agree_bind _ _ _ _ (fillChrs_agrees _ _ _ _ _)
  rintro filled decoded ⟨hlength, _, hdecoded⟩
  apply Decoder.agree_pure
  congr 1
  apply List.ext_getElem
  · simp [hlength]
  · intro i _ hi
    have hfilled := hdecoded i decoded[i] (List.getElem?_eq_getElem hi)
    rw [List.getElem_map, List.getElem_range, ← hfilled, Nat.zero_add]

-- An element outside of its block.
def Outside (w : ElemWrite) : Prop :=
  ¬w.Inside

theorem fillDscs_outside (items : List Json) (numDscs : Nat) (dscs : Nat → Gatts.Dsc) :
    (fillDscs numDscs items dscs).Meets Outside ↔ items ≠ [] := by
  cases items with
  | nil => simp [fillDscs, Decoder.meets_pure]
  | cons item rest =>
      have hoff : Outside ⟨numDscs, numDscs⟩ := Nat.lt_irrefl numDscs
      rw [fillDscs, clearElem, Decoder.meets_look_bind]
      simp only [hoff, true_or, ne_eq, reduceCtorEq, not_false_eq_true]

theorem fillChr_outside (junk : Nat → Gatts.Dsc) (parent : Json) :
    (fillChr junk parent).Meets Outside ↔ ChrReachesDsc parent := by
  unfold fillChr ChrReachesDsc
  simp only [Decoder.meets_bind, Decoder.meets_silent, Decoder.meets_pure, fillDscs_outside,
    Decoder.silent_result, need_ok_iff, jsonInt_ok, false_or, and_false, exists_false, or_false]
  constructor
  · rintro ⟨uuid, huuid, flags, hflags, minKeySize, hsize, arr, harr, hsome⟩
    exact ⟨⟨⟨uuid, huuid⟩, ⟨flags, hflags⟩, ⟨minKeySize, hsize⟩⟩, arr.getD [],
      (wantArr_ok _ _ _ _).mp ⟨arr, harr, rfl⟩, hsome⟩
  · rintro ⟨⟨⟨uuid, huuid⟩, ⟨flags, hflags⟩, ⟨minKeySize, hsize⟩⟩, items, hitems, hsome⟩
    obtain ⟨arr, harr, rfl⟩ := (wantArr_ok _ _ _ _).mpr hitems
    exact ⟨uuid, huuid, flags, hflags, minKeySize, hsize, arr, harr, hsome⟩

-- A characteristic has a slot of its own, so only a descriptor leaves its block.
theorem fillChrs_outside (junk : Nat → Nat → Gatts.Dsc) (numChrs ci : Nat) (items : List Json)
    (chrs : Nat → Gatts.Chr) (hroom : ci + items.length ≤ numChrs) :
    (fillChrs junk numChrs ci items chrs).Meets Outside ↔
      ∃ before item after, items = before ++ item :: after ∧ (∀ chr ∈ before, ValidChr chr) ∧
        ChrReachesDsc item := by
  induction items generalizing ci chrs with
  | nil => simp [fillChrs, Decoder.meets_pure]
  | cons item rest ih =>
      simp only [List.length_cons] at hroom
      have hinside : ¬Outside ⟨ci, numChrs⟩ := by
        simp only [Outside, ElemWrite.Inside, not_not]
        omega
      have hrest := fun chr => ih (ci + 1) (Function.update chrs ci chr) (by omega)
      rw [fillChrs, clearElem, Decoder.meets_look_bind, Decoder.meets_bind, fillChr_outside,
        (fillChr_agrees (junk ci) item).result,
        ← Decoder.comesTo_cons ValidChr ChrReachesDsc item rest, ← validChr_iff item (junk ci)]
      simp only [hinside, false_or, hrest, exists_and_right]

theorem fillSvc_outside (junkChrs : Nat → Gatts.Chr) (junk : Nat → Nat → Gatts.Dsc)
    (parent : Json) : (fillSvc junkChrs junk parent).Meets Outside ↔ ReachesDsc parent := by
  unfold fillSvc ReachesDsc
  have hfill := fun (items : List Json) =>
    fillChrs_outside junk items.length 0 items junkChrs (by omega)
  simp only [Decoder.meets_bind, Decoder.meets_silent, Decoder.meets_pure, Decoder.silent_result,
    need_ok_iff, hfill, false_or, and_false, exists_false, or_false]
  constructor
  · rintro ⟨type, htype, uuid, huuid, arr, harr, before, item, after, hitems, hvalid, hreaches⟩
    have hlist := (wantArr_ok _ _ _ _).mp ⟨arr, harr, rfl⟩
    rw [hitems] at hlist
    exact ⟨⟨⟨type, htype⟩, ⟨uuid, huuid⟩⟩, before, item, after, hlist, hvalid, hreaches⟩
  · rintro ⟨⟨⟨type, htype⟩, ⟨uuid, huuid⟩⟩, before, item, after, hlist, hvalid, hreaches⟩
    obtain ⟨arr, harr, hitems⟩ := (wantArr_ok _ _ _ _).mpr hlist
    exact ⟨type, htype, uuid, huuid, arr, harr, before, item, after, hitems, hvalid, hreaches⟩

theorem faithfulSvc_iff (junkChrs : Nat → Gatts.Chr) (junk : Nat → Nat → Gatts.Dsc)
    (parent : Json) :
    FaithfulSvc parent (fillSvc junkChrs junk parent) ↔ ¬ReachesDsc parent := by
  have hresult := (fillSvc_agrees junkChrs junk parent).result
  constructor
  · intro hfaithful hreaches
    obtain ⟨w, hmem, houtside⟩ := (fillSvc_outside junkChrs junk parent).mpr hreaches
    exact houtside (hfaithful.inside w hmem)
  · intro hreaches
    refine ⟨?_, ?_, ?_⟩
    · intro svc hsvc
      rw [hresult] at hsvc
      exact svcOf_of_ok parent junk svc hsvc hreaches
    · rw [hresult, ← validSvc_iff parent junk]
      cases (jsonSvc junk parent).result <;> simp
    · intro w hmem
      by_contra houtside
      exact hreaches ((fillSvc_outside junkChrs junk parent).mp ⟨w, hmem, houtside⟩)

def describedSvc : Json :=
  .object [(ascii "type", .string (ascii "primary")), (ascii "uuid", .number 0x180f),
    (ascii "characteristics", .array [.object [(ascii "uuid", .number 0x2a19),
      (ascii "flags", .number 2), (ascii "min_key_size", .number 0),
      (ascii "descriptors", .array [.object [(ascii "uuid", .number 0x2901),
        (ascii "att_flags", .number 1), (ascii "min_key_size", .number 0)]])]])]

-- The only descriptor is written to slot 1 of a block of one, and slot 0 is left
-- as it was.
theorem descriptor_outside :
    (fillSvc (fun _ => ⟨.u16 0, 0, 0, []⟩) (fun _ _ => ⟨.zero, 0, 0⟩) describedSvc).result =
      .ok ⟨.primary, .u16 0x180f, [⟨.u16 0x2a19, 2, 0, [⟨.zero, 0, 0⟩]⟩]⟩ ∧
    (fillSvc (fun _ => ⟨.u16 0, 0, 0, []⟩) (fun _ _ => ⟨.zero, 0, 0⟩) describedSvc).lookups =
      [⟨0, 1⟩, ⟨1, 1⟩] ∧
    ¬FaithfulSvc describedSvc
      (fillSvc (fun _ => ⟨.u16 0, 0, 0, []⟩) (fun _ _ => ⟨.zero, 0, 0⟩) describedSvc) := by
  have hwrites : (fillSvc (fun _ => ⟨.u16 0, 0, 0, []⟩) (fun _ _ => ⟨.zero, 0, 0⟩)
      describedSvc).lookups = [⟨0, 1⟩, ⟨1, 1⟩] := by rfl
  refine ⟨by rfl, hwrites, ?_⟩
  intro hfaithful
  have hinside := hfaithful.inside ⟨1, 1⟩ (by simp [hwrites])
  exact Nat.lt_irrefl 1 hinside

end Blehostd
