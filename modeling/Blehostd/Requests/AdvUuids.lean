import Blehostd.Requests.AdvFields
import Blehostd.Util.Arrays
import Blehostd.Util.Uuids

namespace Blehostd

-- The bytes of u128.value in an element of the array. The type stands in front of
-- them, and u16.value, which is aligned, takes up the bytes 1 and 2.
abbrev UuidSlot := Vector UInt8 16

def UuidSlot.store16 (slot : UuidSlot) (u16 : UInt16) : UuidSlot :=
  (slot.setIfInBounds 1 u16.toUInt8).setIfInBounds 2 (u16 >>> 8).toUInt8

-- The loop of uuidLoop. A failure leaves the bytes that are written by then.
def uuidLoopInto : Text → Nat → Nat → UuidSlot → Rc × UuidSlot
  | [], _, _, slot => (none, slot)
  | c :: text, i, k, slot =>
      if 36 ≤ i then (none, slot)
      else if i = 8 ∨ i = 13 ∨ i = 18 ∨ i = 23 then
        if c ≠ 45 then (some .erange, slot) else uuidLoopInto text (i + 1) k slot
      else
        match text with
        | [] => (none, slot)
        | d :: rest =>
            let (ul, endptr) := strtoul [c, d]
            if endptr ≠ [] then (some .erange, slot)
            else uuidLoopInto rest (i + 2) (k - 1) (slot.setIfInBounds k (UInt8.ofNat ul))

def processJsonUuidInto (slot : UuidSlot) (item : Json) : Except ErrCode Uuid × UuidSlot :=
  let (u16, rc) := processJsonIntBounds 1 0xffff item
  if rc = none then (.ok (.u16 (UInt16.ofInt u16)), slot.store16 (UInt16.ofInt u16))
  else
    match processJsonString item with
    | .error e => (.error e, slot)
    | .ok valstr =>
        if valstr.length < BLE_UUID_STR_LEN - 1 then (.error .erange, slot)
        else
          let (rc, slot) := uuidLoopInto valstr 0 15 slot
          (checked (.u128 slot) rc, slot)

theorem uuidLoop_into (text : Text) (i k : Nat) (slot : UuidSlot) :
    uuidLoop text i k slot =
      checked (uuidLoopInto text i k slot).2 (uuidLoopInto text i k slot).1 := by
  fun_induction uuidLoopInto text i k slot with
  | case1 => rfl
  | case2 c text i k slot hend => exact uuidLoop_end _ _ _ _ hend
  | case3 c text i k slot hend hdash hc =>
      rw [uuidLoop_dash c text i k slot hdash, if_neg hc]
      rfl
  | case4 c text i k slot hend hdash hc ih =>
      rw [uuidLoop_dash c text i k slot hdash, if_pos (not_not.mp hc)]
      exact ih
  | case5 c i k slot hend hdash =>
      simp only [uuidLoop, hend, hdash, if_false]
      rfl
  | case6 c i k slot hend hdash d rest ul endptr hread htaken =>
      rw [uuidLoop_pair c d rest i k slot (Nat.not_le.mp hend) hdash, hread, if_neg htaken]
      rfl
  | case7 c i k slot hend hdash d rest ul endptr hread htaken ih =>
      rw [uuidLoop_pair c d rest i k slot (Nat.not_le.mp hend) hdash, hread,
        if_pos (not_not.mp htaken), Pair.byte, hread]
      exact ih

theorem uuidLoopInto_end (text : Text) (i k : Nat) (slot : UuidSlot) (h : 36 ≤ i) :
    uuidLoopInto text i k slot = (none, slot) := by
  cases text with
  | nil => rfl
  | cons c text => cases text <;> simp only [uuidLoopInto, h, if_true]

theorem uuidLoop_error (text : Text) (i k : Nat) (value : Vector UInt8 16) (e : ErrCode)
    (h : uuidLoop text i k value = .error e) : e = .erange := by
  fun_induction uuidLoop text i k value <;> simp_all

-- Character i, with the pair for byte k still to come.
def AtByte (i k : Nat) : Prop :=
  i ≤ 8 ∧ 2 * k + i = 30 ∨ 9 ≤ i ∧ i ≤ 13 ∧ 2 * k + i = 31 ∨ 14 ≤ i ∧ i ≤ 18 ∧ 2 * k + i = 32 ∨
    19 ≤ i ∧ i ≤ 23 ∧ 2 * k + i = 33 ∨ 24 ≤ i ∧ 2 * k + i = 34 ∨ 36 ≤ i

theorem AtByte.dash (i k : Nat) (hat : AtByte i k) (hdash : i = 8 ∨ i = 13 ∨ i = 18 ∨ i = 23) :
    AtByte (i + 1) k := by
  unfold AtByte at hat ⊢
  rcases hdash with rfl | rfl | rfl | rfl <;> omega

theorem AtByte.pair (i k : Nat) (hat : AtByte i (k + 1))
    (hdash : ¬(i = 8 ∨ i = 13 ∨ i = 18 ∨ i = 23)) : AtByte (i + 2) k := by
  unfold AtByte at hat ⊢
  rcases hat with hat | hat | hat | hat | hat | hat <;> omega

-- Byte 0 comes last, when nothing can fail any more.
theorem uuidLoopInto_keeps (text : Text) (i k : Nat) (slot : UuidSlot) (hat : AtByte i k)
    (h : (uuidLoopInto text i k slot).1 ≠ none) : (uuidLoopInto text i k slot).2[0] = slot[0] := by
  fun_induction uuidLoopInto text i k slot with
  | case1 => rfl
  | case2 => rfl
  | case3 => rfl
  | case4 c text i k slot hend hdash hc ih =>
      exact ih (hat.dash i k hdash) h
  | case5 => rfl
  | case6 => rfl
  | case7 c i k slot hend hdash d rest ul endptr hread htaken ih =>
      cases k with
      | zero =>
          have hlast : 36 ≤ i + 2 := by
            unfold AtByte at hat
            omega
          rw [uuidLoopInto_end rest (i + 2) _ _ hlast] at h
          exact absurd rfl h
      | succ k =>
          have hnext := hat.pair i k hdash
          rw [Nat.add_sub_cancel] at ih h ⊢
          rw [ih hnext h, Vector.getElem_setIfInBounds_ne (by decide) (Nat.succ_ne_zero k)]

-- A text that is long enough gives the same value over any contents.
theorem uuidLoop_initial (text : Text) (hlength : BLE_UUID_STR_LEN - 1 ≤ text.length)
    (value value' : Vector UInt8 16) : uuidLoop text 0 15 value = uuidLoop text 0 15 value' := by
  have hpieces := fun initial result =>
    uuidLoop_pieces uuidPieces text 0 15 initial result uuidPieces_placed hlength
  have hfill : ∀ pairs, pairs.length = 16 → fill value 15 pairs = fill value' 15 pairs := by
    intro pairs hpairs
    have hdrop : ∀ initial : Vector UInt8 16, initial.toList.drop (15 + 1) = [] := fun initial =>
      List.drop_of_length_le (by simp)
    apply Vector.toList_inj.mp
    rw [fill_toList value 15 pairs (by decide) hpairs, fill_toList value' 15 pairs (by decide)
      hpairs, hdrop, hdrop]
  have hreads : ∀ initial initial' result, (∀ pairs, pairs.length = 16 →
      fill initial 15 pairs = fill initial' 15 pairs) →
      uuidLoop text 0 15 initial = .ok result → uuidLoop text 0 15 initial' = .ok result := by
    intro initial initial' result hsame hresult
    obtain ⟨pairs, rest, hpairs, htext, htaken, hvalue⟩ := (hpieces initial result).mp hresult
    exact (hpieces initial' result).mpr
      ⟨pairs, rest, hpairs, htext, htaken, (hsame pairs hpairs).symm.trans hvalue⟩
  cases hresult : uuidLoop text 0 15 value with
  | ok result => exact (hreads value value' result hfill hresult).symm
  | error e =>
      cases hresult' : uuidLoop text 0 15 value' with
      | ok result =>
          have hsame := hreads value' value result (fun pairs hpairs => (hfill pairs hpairs).symm)
            hresult'
          rw [hresult] at hsame
          cases hsame
      | error e' =>
          rw [uuidLoop_error _ _ _ _ _ hresult, uuidLoop_error _ _ _ _ _ hresult']

-- What the element of the array holds afterwards.
structure Leaves (slot slot' : UuidSlot) (uuid : Except ErrCode Uuid) : Prop where
  whole : ∀ value, uuid = .ok (.u128 value) → slot' = value
  part : (∀ value, uuid ≠ .ok (.u128 value)) → slot'[0] = slot[0]

theorem Leaves.of_other {slot slot' : UuidSlot} {uuid : Except ErrCode Uuid}
    (h : ∀ value, uuid ≠ .ok (.u128 value)) (hsame : slot'[0] = slot[0]) :
    Leaves slot slot' uuid :=
  ⟨fun value hvalue => absurd hvalue (h value), fun _ => hsame⟩

theorem processJsonUuidInto_uuid (slot : UuidSlot) (item : Json) :
    (processJsonUuidInto slot item).1 = processJsonUuid item := by
  unfold processJsonUuidInto processJsonUuid
  cases hrc : (processJsonIntBounds 1 0xffff item).2 with
  | none => simp [hrc]
  | some e =>
      cases hstring : processJsonString item with
      | error e => simp [hrc, bind, Except.bind]
      | ok text =>
          by_cases hshort : text.length < BLE_UUID_STR_LEN - 1
          · simp [hrc, hshort, bind, Except.bind]
          · have hloop := uuidLoop_initial text (Nat.not_lt.mp hshort) (Vector.replicate 16 0) slot
            rw [uuidLoop_into text 0 15 slot] at hloop
            simp only [hrc, reduceCtorEq, if_false, hshort, bind, Except.bind, hloop]
            cases (uuidLoopInto text 0 15 slot).1 <;> rfl

theorem processJsonUuidInto_leaves (slot : UuidSlot) (item : Json) :
    Leaves slot (processJsonUuidInto slot item).2 (processJsonUuidInto slot item).1 := by
  unfold processJsonUuidInto
  cases hrc : (processJsonIntBounds 1 0xffff item).2 with
  | none =>
      simp only [hrc, if_true]
      exact Leaves.of_other (by simp) (by simp [UuidSlot.store16])
  | some e =>
      cases hstring : processJsonString item with
      | error e =>
          simp only [hrc, reduceCtorEq, if_false]
          exact Leaves.of_other (by simp) rfl
      | ok text =>
          by_cases hshort : text.length < BLE_UUID_STR_LEN - 1
          · simp only [hrc, reduceCtorEq, if_false, hshort, if_true]
            exact Leaves.of_other (by simp) rfl
          · simp only [hrc, reduceCtorEq, if_false, hshort]
            have hkeeps := uuidLoopInto_keeps text 0 15 slot (Or.inl ⟨by omega, by omega⟩)
            cases hloop : (uuidLoopInto text 0 15 slot).1 with
            | none =>
                constructor
                · intro value h
                  simpa only [checked, Except.ok.injEq, Uuid.u128.injEq] using h
                · intro h
                  exact absurd rfl (h _)
            | some e =>
                refine Leaves.of_other (by simp [checked]) (hkeeps ?_)
                rw [hloop]
                exact Option.some_ne_none e

-- The loop over the array, with its elements in memory. The first that decodes ends it.
def arrUuidInto (maxElems : Nat) :
    List Uuid → (Nat → UuidSlot) → List Json → List Uuid × (Nat → UuidSlot)
  | elems, slots, [] => (elems, slots)
  | elems, slots, item :: rest =>
      if maxElems ≤ elems.length then arrUuidInto maxElems elems slots rest
      else
        let (uuid, slot) := processJsonUuidInto (slots elems.length) item
        let slots := Function.update slots elems.length slot
        match uuid with
        | .error _ => arrUuidInto maxElems elems slots rest
        | .ok uuid => (elems ++ [uuid], slots)

theorem firstElem_ok {α : Type} (process : Json → Except ErrCode α) (maxElems : Nat)
    (hmax : maxElems ≠ 0) (item : Json) (rest : List Json) (elem : α)
    (h : process item = .ok elem) : firstElem process maxElems (item :: rest) = [elem] := by
  simp [firstElem, hmax, h, Except.toOption]

theorem firstElem_error {α : Type} (process : Json → Except ErrCode α) (maxElems : Nat)
    (item : Json) (rest : List Json) (e : ErrCode) (h : process item = .error e) :
    firstElem process maxElems (item :: rest) = firstElem process maxElems rest := by
  simp [firstElem, h, Except.toOption]

-- The loop stores the element that the array decoder gives, at the start of the array.
theorem arrUuidInto_first (maxElems : Nat) (hmax : maxElems ≠ 0) (slots : Nat → UuidSlot)
    (items : List Json) :
    (arrUuidInto maxElems [] slots items).1 = firstElem processJsonUuid maxElems items ∧
      Leaves (slots 0) ((arrUuidInto maxElems [] slots items).2 0)
        (((firstElem processJsonUuid maxElems items).head?).elim (.error .enoent) .ok) := by
  have hroom : ¬maxElems ≤ 0 := by omega
  induction items generalizing slots with
  | nil =>
      have hnone : firstElem processJsonUuid maxElems [] = [] := by simp [firstElem]
      rw [hnone]
      exact ⟨rfl, Leaves.of_other (by simp) rfl⟩
  | cons item rest ih =>
      have huuid := processJsonUuidInto_uuid (slots 0) item
      have hleaves := processJsonUuidInto_leaves (slots 0) item
      simp only [arrUuidInto, List.length_nil, hroom, if_false]
      cases hread : (processJsonUuidInto (slots 0) item).1 with
      | error e =>
          obtain ⟨helems, hrest⟩ :=
            ih (Function.update slots 0 (processJsonUuidInto (slots 0) item).2)
          rw [firstElem_error _ _ _ _ e (huuid.symm.trans hread)]
          refine ⟨helems, hrest.whole, ?_⟩
          intro hother
          have hkept := hrest.part hother
          rw [Function.update_self, hleaves.part (by rw [hread]; simp)] at hkept
          exact hkept
      | ok uuid =>
          rw [firstElem_ok _ _ hmax _ _ uuid (huuid.symm.trans hread)]
          refine ⟨rfl, ?_⟩
          show Leaves (slots 0)
            (Function.update slots 0 (processJsonUuidInto (slots 0) item).2 0) (.ok uuid)
          rw [Function.update_self, ← hread]
          exact hleaves

-- The array after ble_json_arr_uuid, from what the stack holds there before.
def uuidsOnStack (slots : Nat → UuidSlot) (parent : Json) : Nat → UuidSlot :=
  match jsonArr parent "uuids128" with
  | .ok items => (arrUuidInto (BLE_HS_ADV_MAX_FIELD_SZ / 16) [] slots items).2
  | .error _ => slots

def Req.onStack (r : Req) (slots : Nat → UuidSlot) : Req :=
  { r with junk := { r.junk with uuidValue := uuidsOnStack slots r.parent 0 } }

theorem arrUuid_ok (maxElems : Nat) (parent : Json) (name : String) (uuids : List Uuid)
    (h : jsonArrUuid maxElems parent name = .ok uuids) :
    ∃ items, parent.getObjectItem name = some (.array items) ∧
      uuids = firstElem processJsonUuid maxElems items := by
  cases hitem : parent.getObjectItem name with
  | none =>
      simp only [jsonArrUuid, jsonArrGen, jsonArr, member, hitem] at h
      cases h
  | some item =>
      cases item with
      | array items =>
          have hfirst := jsonArrGen_first processJsonUuid maxElems parent name items hitem
          rw [jsonArrUuid, hfirst] at h
          exact ⟨items, rfl, (Except.ok.inj h).symm⟩
      | _ =>
          simp only [jsonArrUuid, jsonArrGen, jsonArr, member, hitem] at h
          cases h

theorem uuidsOnStack_array (slots : Nat → UuidSlot) (parent : Json) (items : List Json)
    (h : parent.getObjectItem "uuids128" = some (.array items)) :
    uuidsOnStack slots parent = (arrUuidInto (BLE_HS_ADV_MAX_FIELD_SZ / 16) [] slots items).2 := by
  simp only [uuidsOnStack, jsonArr, member, h]

-- The bytes that the handler copies are those of the decoded request.
theorem uuidsOnStack_copied (slots : Nat → UuidSlot) (parent : Json) (uuids : List Uuid)
    (h : jsonArrUuid (BLE_HS_ADV_MAX_FIELD_SZ / 16) parent "uuids128" = .ok uuids) :
    (List.range uuids.length).map (uuidsOnStack slots parent) =
      uuids.map (uuidValue (uuidsOnStack slots parent 0)) := by
  obtain ⟨items, hitems, rfl⟩ := arrUuid_ok _ _ _ _ h
  have hleaves := (arrUuidInto_first (BLE_HS_ADV_MAX_FIELD_SZ / 16) (by decide) slots items).2
  have hlength := firstElem_length processJsonUuid (BLE_HS_ADV_MAX_FIELD_SZ / 16) items
  rw [← uuidsOnStack_array slots parent items hitems] at hleaves
  match huuids : firstElem processJsonUuid (BLE_HS_ADV_MAX_FIELD_SZ / 16) items with
  | [] => rfl
  | [.u16 value] => rfl
  | [.u32 value] => rfl
  | [.u128 value] =>
      rw [huuids] at hleaves
      simp [uuidValue, hleaves.whole value rfl]
  | _ :: _ :: _ =>
      rw [huuids] at hlength
      simp at hlength

-- The stack shows in the 128-bit UUIDs only.
theorem advFieldsDec_junk (r : Req) (req : AdvFieldsReq) (h : (advFieldsDec r).result = .ok req) :
    ∃ uuids, (advListDec r "uuids128" "invalid uuids128"
      (jsonArrUuid (BLE_HS_ADV_MAX_FIELD_SZ / 16))).result = .ok uuids ∧
        ∀ junk, (advFieldsDec { r with junk := junk }).result =
          .ok { req with uuids128 := uuids.map (uuidValue junk.uuidValue) } := by
  have hdecoded := advDecoded r req h
  obtain ⟨uuids, huuids, _⟩ := hdecoded.uuids128
  refine ⟨uuids, huuids, ?_⟩
  intro junk
  apply advFieldsDec_of
  exact
    { flags := hdecoded.flags
      uuids16 := hdecoded.uuids16
      uuids16IsComplete := hdecoded.uuids16IsComplete
      uuids32 := hdecoded.uuids32
      uuids32IsComplete := hdecoded.uuids32IsComplete
      uuids128 := ⟨uuids, huuids, rfl⟩
      uuids128IsComplete := hdecoded.uuids128IsComplete
      name := hdecoded.name
      nameIsComplete := hdecoded.nameIsComplete
      txPwrLvl := hdecoded.txPwrLvl
      slaveItvl := hdecoded.slaveItvl
      svcDataUuid16 := hdecoded.svcDataUuid16
      publicTgtAddrs := hdecoded.publicTgtAddrs
      appearance := hdecoded.appearance
      advItvl := hdecoded.advItvl
      svcDataUuid32 := hdecoded.svcDataUuid32
      svcDataUuid128 := hdecoded.svcDataUuid128
      uri := hdecoded.uri
      mfgData := hdecoded.mfgData }

-- The element that the array decoder keeps.
def firstUuid (items : List Json) : Option Json :=
  items.find? fun item => (processJsonUuid item).toOption.isSome

theorem firstElem_firstUuid (maxElems : Nat) (hmax : maxElems ≠ 0) (items : List Json) :
    firstElem processJsonUuid maxElems items = [] ∧ firstUuid items = none ∨
      ∃ item ∈ items, ∃ uuid, firstUuid items = some item ∧ processJsonUuid item = .ok uuid ∧
        firstElem processJsonUuid maxElems items = [uuid] := by
  induction items with
  | nil => exact Or.inl ⟨by simp [firstElem], rfl⟩
  | cons item rest ih =>
      cases hread : processJsonUuid item with
      | ok uuid =>
          refine Or.inr ⟨item, List.mem_cons_self, uuid, ?_, hread, ?_⟩
          · simp [firstUuid, hread, Except.toOption]
          · exact firstElem_ok _ _ hmax _ _ uuid hread
      | error e =>
          have hfirst : firstUuid (item :: rest) = firstUuid rest := by
            simp [firstUuid, hread, Except.toOption]
          rw [firstElem_error _ _ _ _ e hread, hfirst]
          rcases ih with hnone | ⟨other, hmem, hother⟩
          · exact Or.inl hnone
          · exact Or.inr ⟨other, List.mem_cons_of_mem item hmem, hother⟩

-- A UUID is a number or a string, of 16 or of 128 bits.
theorem processJsonUuid_cases (item : Json) (uuid : Uuid) (h : processJsonUuid item = .ok uuid) :
    (∃ n value, item = .number n ∧ uuid = .u16 value) ∨
      ∃ text value, item = .string text ∧ uuid = .u128 value := by
  cases item with
  | number n =>
      rw [processJsonUuid_number] at h
      split_ifs at h
      exact Or.inl ⟨n, _, rfl, (Except.ok.inj h).symm⟩
  | string text =>
      obtain ⟨pairs, rest, _, _, _, huuid⟩ := (processJsonUuid_string text uuid).mp h
      exact Or.inr ⟨text, _, rfl, huuid⟩
  | _ => cases h

-- What is advertised comes from strings of the array, whatever the stack holds.
structure OwnUuids (r : Req) : Prop where
  own : ∀ slots req, (advFieldsDec (r.onStack slots)).result = .ok req → ∀ value ∈ req.uuids128,
    ∃ items text, r.parent.getObjectItem "uuids128" = some (.array items) ∧
      Json.string text ∈ items ∧ processJsonUuid (.string text) = .ok (.u128 value)
  twoRun : ∀ slots slots',
    (advFieldsDec (r.onStack slots)).result = (advFieldsDec (r.onStack slots')).result

-- The kept element, and what the slot of the array holds for it.
structure KeptUuid (parent : Json) (items : List Json) (item : Json) (uuid : Uuid) : Prop where
  array : parent.getObjectItem "uuids128" = some (.array items)
  first : firstUuid items = some item
  mem : item ∈ items
  read : processJsonUuid item = .ok uuid
  slot : ∀ slots : Nat → UuidSlot, Leaves (slots 0) (uuidsOnStack slots parent 0) (.ok uuid)

theorem decoded_uuids (r : Req) (uuids : List Uuid)
    (h : (advListDec r "uuids128" "invalid uuids128"
      (jsonArrUuid (BLE_HS_ADV_MAX_FIELD_SZ / 16))).result = .ok uuids) :
    (uuids = [] ∧ ∀ items, r.parent.getObjectItem "uuids128" = some (.array items) →
      firstUuid items = none) ∨
      ∃ items item uuid, KeptUuid r.parent items item uuid ∧ uuids = [uuid] := by
  simp only [advListDec, Decoder.bind_result_ok] at h
  obtain ⟨found, hfound, huuids⟩ := h
  obtain rfl := Except.ok.inj huuids
  rcases (want_ok_iff _ _ _ _ _).mp hfound with ⟨uuids, hread, rfl⟩ | ⟨habsent, rfl⟩
  · obtain ⟨items, hitems, rfl⟩ := arrUuid_ok _ _ _ _ hread
    rcases firstElem_firstUuid (BLE_HS_ADV_MAX_FIELD_SZ / 16) (by decide) items with
      ⟨helems, hnone⟩ | ⟨item, hmem, uuid, hfirst, hitem, helems⟩
    · refine Or.inl ⟨helems, ?_⟩
      intro other hother
      obtain rfl := Json.array.inj (Option.some.inj (hitems.symm.trans hother))
      exact hnone
    · refine Or.inr ⟨items, item, uuid, ⟨hitems, hfirst, hmem, hitem, ?_⟩, helems⟩
      intro slots
      have hleaves := (arrUuidInto_first (BLE_HS_ADV_MAX_FIELD_SZ / 16) (by decide) slots items).2
      rw [helems] at hleaves
      rw [uuidsOnStack_array slots r.parent items hitems]
      exact hleaves
  · refine Or.inl ⟨rfl, ?_⟩
    intro items hitems
    rw [jsonArrUuid, jsonArrGen_first processJsonUuid _ _ _ items hitems] at habsent
    cases habsent

section Kept

variable {r : Req} {req : AdvFieldsReq} {items : List Json}

-- Two stacks that differ in byte 0 are told apart by the request.
theorem KeptUuid.not_own {n : Int} {value : UInt16}
    (h : KeptUuid r.parent items (.number n) (.u16 value))
    (hrun : ∀ slots, (advFieldsDec (r.onStack slots)).result =
      .ok { req with uuids128 := [uuidsOnStack slots r.parent 0] }) : ¬OwnUuids r := by
  intro hown
  have hsame := hown.twoRun (fun _ => Vector.replicate 16 0) (fun _ => Vector.replicate 16 1)
  rw [hrun, hrun] at hsame
  have hslots := congrArg AdvFieldsReq.uuids128 (Except.ok.inj hsame)
  have hslot := List.head_eq_of_cons_eq hslots
  have hzero := (h.slot fun _ => Vector.replicate 16 0).part (by simp)
  have hone := (h.slot fun _ => Vector.replicate 16 1).part (by simp)
  rw [← hslot, hzero] at hone
  simp at hone

theorem KeptUuid.own {text : Text} {value : Vector UInt8 16}
    (h : KeptUuid r.parent items (.string text) (.u128 value))
    (hrun : ∀ slots, (advFieldsDec (r.onStack slots)).result =
      .ok { req with uuids128 := [value] }) : OwnUuids r := by
  refine ⟨?_, ?_⟩
  · intro slots req' hreq' other hother
    rw [hrun slots] at hreq'
    obtain rfl := Except.ok.inj hreq'
    obtain rfl := List.mem_singleton.mp hother
    exact ⟨items, text, h.array, h.mem, h.read⟩
  · intro slots slots'
    rw [hrun slots, hrun slots']

end Kept

theorem own_of_none {r : Req} {req : AdvFieldsReq}
    (hrun : ∀ slots, (advFieldsDec (r.onStack slots)).result = .ok { req with uuids128 := [] }) :
    OwnUuids r := by
  refine ⟨?_, ?_⟩
  · intro slots req' hreq' value hvalue
    rw [hrun slots] at hreq'
    obtain rfl := Except.ok.inj hreq'
    cases hvalue
  · intro slots slots'
    rw [hrun slots, hrun slots']

theorem own_uuids_iff (r : Req) (h : ∃ req, (advFieldsDec r).result = .ok req) :
    OwnUuids r ↔ ∀ items n, r.parent.getObjectItem "uuids128" = some (.array items) →
      firstUuid items ≠ some (.number n) := by
  obtain ⟨req, hreq⟩ := h
  obtain ⟨uuids, huuids, hjunk⟩ := advFieldsDec_junk r req hreq
  have hrun : ∀ slots, (advFieldsDec (r.onStack slots)).result =
      .ok { req with uuids128 := uuids.map (uuidValue (uuidsOnStack slots r.parent 0)) } :=
    fun slots => hjunk _
  rcases decoded_uuids r uuids huuids with ⟨rfl, hnone⟩ | ⟨items, item, uuid, hkept, rfl⟩
  · refine iff_of_true (own_of_none hrun) ?_
    intro items n hitems
    rw [hnone items hitems]
    exact (Option.some_ne_none _).symm
  · rcases processJsonUuid_cases item uuid hkept.read with
      ⟨n, value, rfl, rfl⟩ | ⟨text, value, rfl, rfl⟩
    · refine iff_of_false (hkept.not_own hrun) ?_
      intro hother
      exact hother items n hkept.array hkept.first
    · have hvalue : ∀ slots, uuidsOnStack slots r.parent 0 = value := fun slots =>
        (hkept.slot slots).whole value rfl
      have hstring : ∀ slots, (advFieldsDec (r.onStack slots)).result =
          .ok { req with uuids128 := [value] } := by
        intro slots
        rw [hrun slots, hvalue slots]
        rfl
      refine iff_of_true (hkept.own hstring) ?_
      intro other n hother hfirst
      obtain rfl := Json.array.inj (Option.some.inj (hkept.array.symm.trans hother))
      rw [hkept.first] at hfirst
      cases hfirst

theorem exists_ok_of_isOk {ε α : Type} (x : Except ε α) (h : x.isOk = true) : ∃ a, x = .ok a := by
  cases x with
  | ok a => exact ⟨a, rfl⟩
  | error e => cases h

def uuidText128 : Text :=
  ascii "00001101-0000-1000-8000-00805f9b34fb"

def uuidReq (item : Json) : Req :=
  ⟨.object [(ascii "uuids128", .array [.null, item])], 7, zeroJunk⟩

theorem long_uuid_own : OwnUuids (uuidReq (.string uuidText128)) := by
  refine (own_uuids_iff (uuidReq (.string uuidText128)) (exists_ok_of_isOk _ ?_)).mpr ?_
  · decide +kernel
  · intro items n hitems hfirst
    obtain rfl := Json.array.inj (Option.some.inj hitems)
    have hread : (processJsonUuid (.string uuidText128)).toOption.isSome = true := by decide +kernel
    have hnull : (processJsonUuid .null).toOption.isSome = false := rfl
    simp only [firstUuid, List.find?_cons, hnull, hread] at hfirst
    cases hfirst

-- Of a number the handler copies the two bytes and what is around them.
theorem short_uuid_shows_stack :
    (advFieldsDec (uuidReq (.number 0x180f))).result.isOk = true ∧
      ¬OwnUuids (uuidReq (.number 0x180f)) := by
  refine ⟨by decide +kernel, ?_⟩
  intro hown
  have hsame := hown.twoRun (fun _ => Vector.replicate 16 0) (fun _ => Vector.replicate 16 1)
  have hbytes := congrArg (fun result => result.toOption.map AdvFieldsReq.uuids128) hsame
  revert hbytes
  decide +kernel

end Blehostd
