import Mathlib.Data.List.TakeWhile
import Blehostd.Util

namespace Blehostd

-- Two characters of the string form of a UUID, which are read together.
abbrev Pair := UInt8 × UInt8

namespace Pair

def Digits (pair : Pair) : Prop :=
  isHexDigit pair.1 = true ∧ isHexDigit pair.2 = true

-- A digit behind a blank or a sign.
def Padded (pair : Pair) : Prop :=
  (isspace pair.1 = true ∨ pair.1 = 43 ∨ pair.1 = 45) ∧ isHexDigit pair.2 = true

def value (pair : Pair) : UInt8 :=
  UInt8.ofNat (hexValue [pair.1, pair.2])

-- strtoul takes both characters, and what it makes of them.
def Taken (pair : Pair) : Prop :=
  (strtoul [pair.1, pair.2]).2 = []

def byte (pair : Pair) : UInt8 :=
  UInt8.ofNat (strtoul [pair.1, pair.2]).1

end Pair

inductive UuidPiece where
  | pair
  | dash
deriving DecidableEq, Repr

-- The form 8-4-4-4-12.
def uuidPieces : List UuidPiece :=
  [.pair, .pair, .pair, .pair, .dash, .pair, .pair, .dash, .pair, .pair, .dash,
    .pair, .pair, .dash, .pair, .pair, .pair, .pair, .pair, .pair]

def pairCount : List UuidPiece → Nat
  | [] => 0
  | .pair :: pieces => pairCount pieces + 1
  | .dash :: pieces => pairCount pieces

def width : List UuidPiece → Nat
  | [] => 0
  | .pair :: pieces => width pieces + 2
  | .dash :: pieces => width pieces + 1

def form : List UuidPiece → List Pair → Text
  | [], _ => []
  | .dash :: pieces, pairs => 45 :: form pieces pairs
  | .pair :: _, [] => []
  | .pair :: pieces, pair :: pairs => pair.1 :: pair.2 :: form pieces pairs

-- The pieces stand where the loop expects them, from character i on.
def Placed : Nat → List UuidPiece → Prop
  | i, [] => 36 ≤ i
  | i, .pair :: pieces => i < 36 ∧ ¬(i = 8 ∨ i = 13 ∨ i = 18 ∨ i = 23) ∧ Placed (i + 2) pieces
  | i, .dash :: pieces => (i = 8 ∨ i = 13 ∨ i = 18 ∨ i = 23) ∧ Placed (i + 1) pieces

-- The bytes of the pairs go to the value from its byte k downwards.
def fill (value : Vector UInt8 16) (k : Nat) : List Pair → Vector UInt8 16
  | [] => value
  | pair :: pairs => fill (value.setIfInBounds k pair.byte) (k - 1) pairs

theorem uuidPieces_placed : Placed 0 uuidPieces := by
  simp [uuidPieces, Placed]

theorem form_length (pieces : List UuidPiece) (pairs : List Pair)
    (hpairs : pairs.length = pairCount pieces) : (form pieces pairs).length = width pieces := by
  induction pieces generalizing pairs with
  | nil => rfl
  | cons piece pieces ih =>
      cases piece with
      | pair =>
          cases pairs with
          | nil => simp [pairCount] at hpairs
          | cons pair pairs =>
              simp only [form, List.length_cons, width]
              rw [ih pairs (by simpa [pairCount] using hpairs)]
      | dash =>
          simp only [form, List.length_cons, width]
          rw [ih pairs hpairs]

theorem form_inj (pieces : List UuidPiece) (pairs pairs' : List Pair) (rest rest' : Text)
    (hpairs : pairs.length = pairCount pieces) (hpairs' : pairs'.length = pairCount pieces)
    (h : form pieces pairs ++ rest = form pieces pairs' ++ rest') :
    pairs = pairs' ∧ rest = rest' := by
  induction pieces generalizing pairs pairs' with
  | nil =>
      obtain rfl := List.length_eq_zero_iff.mp hpairs
      obtain rfl := List.length_eq_zero_iff.mp hpairs'
      exact ⟨rfl, h⟩
  | cons piece pieces ih =>
      cases piece with
      | pair =>
          cases pairs with
          | nil => simp [pairCount] at hpairs
          | cons pair pairs =>
              cases pairs' with
              | nil => simp [pairCount] at hpairs'
              | cons pair' pairs' =>
                  simp only [form, List.cons_append, List.cons.injEq] at h
                  obtain ⟨hfirst, hsecond, hrest⟩ := h
                  obtain ⟨rfl, rfl⟩ := ih pairs pairs' (by simpa [pairCount] using hpairs)
                    (by simpa [pairCount] using hpairs') hrest
                  exact ⟨congrArg₂ List.cons (Prod.ext hfirst hsecond) rfl, rfl⟩
      | dash =>
          simp only [form, List.cons_append, List.cons.injEq, true_and] at h
          exact ih pairs pairs' hpairs hpairs' h

theorem uuidLoop_pair (c d : UInt8) (text : Text) (i k : Nat) (value : Vector UInt8 16)
    (hend : i < 36) (hdash : ¬(i = 8 ∨ i = 13 ∨ i = 18 ∨ i = 23)) :
    uuidLoop (c :: d :: text) i k value =
      if (strtoul [c, d]).2 = [] then
        uuidLoop text (i + 2) (k - 1) (value.setIfInBounds k (Pair.byte (c, d)))
      else .error .erange := by
  have hgo : ¬36 ≤ i := Nat.not_le.mpr hend
  by_cases htaken : (strtoul [c, d]).2 = []
  · simp only [uuidLoop, hgo, hdash, if_false, htaken, ne_eq, not_true_eq_false, if_true, Pair.byte]
  · simp only [uuidLoop, hgo, hdash, if_false, htaken, ne_eq, not_false_eq_true, if_true]

theorem uuidLoop_dash (c : UInt8) (text : Text) (i k : Nat) (value : Vector UInt8 16)
    (hdash : i = 8 ∨ i = 13 ∨ i = 18 ∨ i = 23) :
    uuidLoop (c :: text) i k value =
      if c = 45 then uuidLoop text (i + 1) k value else .error .erange := by
  have hgo : ¬36 ≤ i := by omega
  by_cases hc : c = 45
  · cases text <;> simp [uuidLoop, hgo, hdash, hc]
  · cases text <;> simp [uuidLoop, hgo, hdash, hc]

-- The text begins with the form, strtoul takes every pair, and their bytes make
-- the result.
def Reads (pieces : List UuidPiece) (text : Text) (k : Nat)
    (value result : Vector UInt8 16) : Prop :=
  ∃ pairs rest, pairs.length = pairCount pieces ∧ text = form pieces pairs ++ rest ∧
    (∀ pair ∈ pairs, pair.Taken) ∧ fill value k pairs = result

theorem reads_nil (text : Text) (k : Nat) (value result : Vector UInt8 16) :
    Reads [] text k value result ↔ value = result := by
  constructor
  · rintro ⟨pairs, rest, hpairs, _, _, hfill⟩
    obtain rfl := List.length_eq_zero_iff.mp hpairs
    exact hfill
  · intro h
    exact ⟨[], text, rfl, rfl, by simp, h⟩

theorem reads_pair (pieces : List UuidPiece) (c d : UInt8) (text : Text) (k : Nat)
    (value result : Vector UInt8 16) :
    Reads (.pair :: pieces) (c :: d :: text) k value result ↔ Pair.Taken (c, d) ∧
      Reads pieces text (k - 1) (value.setIfInBounds k (Pair.byte (c, d))) result := by
  constructor
  · rintro ⟨pairs, rest, hpairs, htext, hall, hfill⟩
    cases pairs with
    | nil => simp [pairCount] at hpairs
    | cons pair pairs =>
        simp only [form, List.cons_append, List.cons.injEq] at htext
        obtain ⟨rfl, rfl, htext⟩ := htext
        rw [List.forall_mem_cons] at hall
        exact ⟨hall.1, pairs, rest, by simpa [pairCount] using hpairs, htext, hall.2, hfill⟩
  · rintro ⟨htaken, pairs, rest, hpairs, rfl, hall, hfill⟩
    refine ⟨(c, d) :: pairs, rest, congrArg Nat.succ hpairs, rfl, ?_, hfill⟩
    rw [List.forall_mem_cons]
    exact ⟨htaken, hall⟩

theorem reads_dash (pieces : List UuidPiece) (c : UInt8) (text : Text) (k : Nat)
    (value result : Vector UInt8 16) :
    Reads (.dash :: pieces) (c :: text) k value result ↔
      c = 45 ∧ Reads pieces text k value result := by
  constructor
  · rintro ⟨pairs, rest, hpairs, htext, hall, hfill⟩
    simp only [form, List.cons_append, List.cons.injEq] at htext
    exact ⟨htext.1, pairs, rest, hpairs, htext.2, hall, hfill⟩
  · rintro ⟨rfl, pairs, rest, hpairs, rfl, hall, hfill⟩
    exact ⟨pairs, rest, hpairs, rfl, hall, hfill⟩

theorem uuidLoop_end (text : Text) (i k : Nat) (value : Vector UInt8 16) (h : 36 ≤ i) :
    uuidLoop text i k value = .ok value := by
  cases text with
  | nil => rfl
  | cons c text => cases text <;> simp only [uuidLoop, h, if_true]

-- One piece of the text after the other, by induction on the pieces.
theorem uuidLoop_pieces (pieces : List UuidPiece) (text : Text) (i k : Nat)
    (value result : Vector UInt8 16) (hplaced : Placed i pieces)
    (hlength : width pieces ≤ text.length) :
    uuidLoop text i k value = .ok result ↔ Reads pieces text k value result := by
  induction pieces generalizing text i k value with
  | nil =>
      rw [uuidLoop_end text i k value hplaced, reads_nil, Except.ok.injEq]
  | cons piece pieces ih =>
      cases piece with
      | pair =>
          obtain ⟨hend, hdash, hplaced⟩ := hplaced
          match text, hlength with
          | c :: d :: text, hlength =>
              simp only [width, List.length_cons] at hlength
              have hrest := fun value => ih text (i + 2) (k - 1) value hplaced (by omega)
              rw [uuidLoop_pair c d text i k value hend hdash, reads_pair, ← hrest]
              by_cases htaken : (strtoul [c, d]).2 = []
              · rw [if_pos htaken]
                exact (and_iff_right htaken).symm
              · rw [if_neg htaken]
                exact iff_of_false (by simp) fun h => htaken h.1
      | dash =>
          obtain ⟨hdash, hplaced⟩ := hplaced
          match text, hlength with
          | c :: text, hlength =>
              simp only [width, List.length_cons] at hlength
              have hrest := ih text (i + 1) k value hplaced (by omega)
              rw [uuidLoop_dash c text i k value hdash, reads_dash, ← hrest]
              by_cases hc : c = 45
              · rw [if_pos hc]
                exact (and_iff_right hc).symm
              · rw [if_neg hc]
                exact iff_of_false (by simp) fun h => hc h.1

-- The bytes down to byte 0 come from the pairs, and the others stay.
theorem fill_toList (value : Vector UInt8 16) (k : Nat) (pairs : List Pair) (hk : k < 16)
    (hpairs : pairs.length = k + 1) :
    (fill value k pairs).toList = (pairs.map Pair.byte).reverse ++ value.toList.drop (k + 1) := by
  induction pairs generalizing value k with
  | nil => simp at hpairs
  | cons pair pairs ih =>
      have hset : (value.setIfInBounds k pair.byte).toList.drop k =
          pair.byte :: value.toList.drop (k + 1) := by
        have hlist : (value.setIfInBounds k pair.byte).toList = value.toList.set k pair.byte := by
          simp only [Vector.toList, Vector.toArray_setIfInBounds, Array.toList_setIfInBounds]
        have hbound : k < value.toList.length := by simpa using hk
        rw [hlist, List.set_eq_take_append_cons_drop, if_pos hbound, List.drop_append_of_le_length,
          List.drop_take]
        · simp
        · simp; omega
      cases k with
      | zero =>
          obtain rfl := List.length_eq_zero_iff.mp (Nat.succ.inj hpairs)
          simpa [fill] using hset
      | succ k =>
          rw [fill, Nat.add_sub_cancel, ih _ k (by omega) (Nat.succ.inj hpairs), hset]
          simp

theorem hexDigit_plain : ∀ n < 256, isHexDigit (UInt8.ofNat n) = true →
    isspace (UInt8.ofNat n) = false ∧ UInt8.ofNat n ≠ 43 ∧ UInt8.ofNat n ≠ 45 := by
  decide +kernel

theorem plain_of_hexDigit (c : UInt8) (hc : isHexDigit c = true) :
    isspace c = false ∧ c ≠ 43 ∧ c ≠ 45 := by
  have h := hexDigit_plain c.toNat c.toNat_lt
  rw [UInt8.ofNat_toNat] at h
  exact h hc

theorem Pair.Padded.not_digits {pair : Pair} (h : pair.Padded) : ¬pair.Digits := by
  intro hdigits
  obtain ⟨hspace, hplus, hminus⟩ := plain_of_hexDigit pair.1 hdigits.1
  rcases h.1 with hblank | hsign | hsign
  · rw [hspace] at hblank
    cases hblank
  · exact hplus hsign
  · exact hminus hsign

theorem skipSign_plain (c : UInt8) (text : Text) (hplus : c ≠ 43) (hminus : c ≠ 45) :
    skipSign (c :: text) = (false, c :: text) := by
  unfold skipSign
  split <;> simp_all

theorem hexDigit_lt : ∀ n < 256, (hexDigit (UInt8.ofNat n)).getD 0 < 16 := by
  decide +kernel

theorem hexValue_pair_lt (c d : UInt8) : hexValue [c, d] < 256 := by
  have hc := hexDigit_lt c.toNat c.toNat_lt
  have hd := hexDigit_lt d.toNat d.toNat_lt
  rw [UInt8.ofNat_toNat] at hc hd
  simp only [hexValue, List.foldl_cons, List.foldl_nil]
  omega

theorem skipSign_suffix (text : Text) : (skipSign text).2 <:+ text := by
  unfold skipSign
  split
  · exact List.suffix_cons _ _
  · exact List.suffix_cons _ _
  · exact List.suffix_rfl

theorem skipHexPrefix_suffix (text : Text) : skipHexPrefix text <:+ text := by
  unfold skipHexPrefix
  split
  · split
    · exact List.drop_suffix _ _
    · exact List.suffix_rfl
  · exact List.suffix_rfl

-- When strtoul takes a whole text, the last character is a digit.
theorem strtoul_last (text : Text) (c : UInt8) (h : (strtoul (text ++ [c])).2 = []) :
    isHexDigit c = true := by
  obtain ⟨digits, hdigits⟩ : ∃ digits,
      digits = skipHexPrefix (skipSign ((text ++ [c]).dropWhile isspace)).2 := ⟨_, rfl⟩
  have hsuffix : digits <:+ text ++ [c] := by
    rw [hdigits]
    exact (skipHexPrefix_suffix _).trans ((skipSign_suffix _).trans (List.dropWhile_suffix isspace))
  simp only [strtoul, ← hdigits] at h
  by_cases hnone : digits.takeWhile isHexDigit = []
  · simp [hnone] at h
  · rw [if_neg hnone] at h
    have hall := List.dropWhile_eq_nil_iff.mp h
    rcases List.suffix_concat_iff.mp hsuffix with rfl | ⟨front, rfl, _⟩
    · exact absurd rfl hnone
    · exact hall c (by simp)

theorem strtoul_digits (c d : UInt8) (hc : isHexDigit c = true) (hd : isHexDigit d = true) :
    strtoul [c, d] = (hexValue [c, d], []) := by
  obtain ⟨hspace, hplus, hminus⟩ := plain_of_hexDigit c hc
  have hbound : ¬ULONG_MAX < hexValue [c, d] := by
    have hvalue := hexValue_pair_lt c d
    have hmax : 256 ≤ ULONG_MAX := by decide
    omega
  simp [strtoul, hspace, skipSign_plain c [d] hplus hminus, skipHexPrefix, hc, hd, hbound]

theorem taken_iff (pair : Pair) : pair.Taken ↔ pair.Digits ∨ pair.Padded := by
  obtain ⟨c, d⟩ := pair
  unfold Pair.Taken Pair.Digits Pair.Padded
  simp only
  by_cases hd : isHexDigit d = true
  · obtain ⟨hspace, hplus, hminus⟩ := plain_of_hexDigit d hd
    have hskip := skipSign_plain d [] hplus hminus
    by_cases hblank : isspace c = true
    · simp [strtoul, hblank, hspace, hskip, skipHexPrefix, hd]
    · by_cases hsign : c = 43
      · subst hsign
        simp [strtoul, show isspace 43 = false from rfl, skipSign, skipHexPrefix, hd]
      · by_cases hsign' : c = 45
        · subst hsign'
          simp [strtoul, show isspace 45 = false from rfl, skipSign, skipHexPrefix, hd]
        · have hskip' := skipSign_plain c [d] hsign hsign'
          by_cases hc : isHexDigit c = true
          · simp [strtoul, hblank, hskip', skipHexPrefix, hd, hc]
          · simp [strtoul, hblank, hskip', skipHexPrefix, hd, hc, hsign, hsign']
  · have hnot : (strtoul [c, d]).2 ≠ [] := fun h => hd (strtoul_last [c] d h)
    simp [hnot, hd]

theorem Pair.Digits.byte {pair : Pair} (h : pair.Digits) : pair.byte = pair.value := by
  unfold Pair.byte Pair.value
  rw [strtoul_digits pair.1 pair.2 h.1 h.2]

-- The string form of a UUID: 36 characters with dashes at 8, 13, 18 and 23.
def uuidForm (pairs : List Pair) : Text :=
  form uuidPieces pairs

theorem uuidForm_length (pairs : List Pair) (hpairs : pairs.length = 16) :
    (uuidForm pairs).length = 36 :=
  form_length uuidPieces pairs hpairs

def UuidNumber (item : Json) : Prop :=
  ∃ n : Int, item = .number n ∧ 1 ≤ n ∧ n ≤ 65535

def UuidString (item : Json) (pairs : List Pair) : Prop :=
  pairs.length = 16 ∧ (∀ pair ∈ pairs, pair.Digits) ∧ item = .string (uuidForm pairs)

-- Nothing but the two forms is accepted, and the bytes of a string are stored
-- from the last one down.
structure ExactUuid (item : Json) : Prop where
  accepted : (∃ uuid, processJsonUuid item = .ok uuid) ↔
    UuidNumber item ∨ ∃ pairs, UuidString item pairs
  bytes : ∀ pairs, UuidString item pairs → ∃ value : Vector UInt8 16,
    processJsonUuid item = .ok (.u128 value) ∧
      ∀ k < 16, value[15 - k]? = pairs[k]?.map Pair.value

-- A string in this form that goes on behind it, or that has a blank or a sign
-- in the place of a first digit.
def LooseUuid (item : Json) : Prop :=
  ∃ pairs rest, pairs.length = 16 ∧ item = .string (uuidForm pairs ++ rest) ∧
    (∀ pair ∈ pairs, pair.Digits ∨ pair.Padded) ∧ (rest ≠ [] ∨ ∃ pair ∈ pairs, pair.Padded)

theorem processJsonUuid_number (n : Int) :
    processJsonUuid (.number n) =
      if 1 ≤ n ∧ n ≤ 65535 then .ok (.u16 (UInt16.ofInt n)) else .error .erange := by
  by_cases hbounds : 1 ≤ n ∧ n ≤ 65535
  · have hin : ¬(n < 1 ∨ 65535 < n) := by omega
    simp [processJsonUuid, processJsonIntBounds, processJsonInt, hin, hbounds]
  · have hout : n < 1 ∨ 65535 < n := by omega
    simp [processJsonUuid, processJsonIntBounds, processJsonInt, processJsonString, hout, hbounds,
      bind, Except.bind]

-- A text that is too short for a 128-bit UUID is refused.
theorem uuidText_short (text : Text) (h : text.length < BLE_UUID_STR_LEN - 1) :
    processJsonUuid (.string text) = .error .erange := by
  simp only [processJsonUuid, processJsonIntBounds, processJsonInt, processJsonString, ne_eq,
    reduceCtorEq, not_false_eq_true, if_true, if_false, h, bind, Except.bind]

theorem processJsonUuid_string (text : Text) (uuid : Uuid) :
    processJsonUuid (.string text) = .ok uuid ↔
      ∃ pairs rest, pairs.length = 16 ∧ text = uuidForm pairs ++ rest ∧
        (∀ pair ∈ pairs, pair.Taken) ∧
          uuid = .u128 (fill (Vector.replicate 16 0) 15 pairs) := by
  by_cases hshort : text.length < BLE_UUID_STR_LEN - 1
  · rw [uuidText_short text hshort]
    simp only [reduceCtorEq, false_iff]
    rintro ⟨pairs, rest, hpairs, rfl, _, _⟩
    have hlength := uuidForm_length pairs hpairs
    simp only [List.length_append, hlength, BLE_UUID_STR_LEN] at hshort
    omega
  · have hread : processJsonUuid (.string text) =
        (uuidLoop text 0 15 (Vector.replicate 16 0)).map Uuid.u128 := by
      simp only [processJsonUuid, processJsonIntBounds, processJsonInt, processJsonString, ne_eq,
        reduceCtorEq, not_false_eq_true, if_true, if_false, hshort, bind, Except.bind]
      cases uuidLoop text 0 15 (Vector.replicate 16 0) <;> rfl
    have hlength : width uuidPieces ≤ text.length := Nat.not_lt.mp hshort
    have hloop := fun value => uuidLoop_pieces uuidPieces text 0 15 (Vector.replicate 16 0) value
      uuidPieces_placed hlength
    rw [hread]
    constructor
    · intro h
      cases hresult : uuidLoop text 0 15 (Vector.replicate 16 0) with
      | error e => simp [hresult, Except.map] at h
      | ok value =>
          obtain ⟨pairs, rest, hpairs, htext, htaken, hfill⟩ := (hloop value).mp hresult
          rw [hresult] at h
          refine ⟨pairs, rest, hpairs, htext, htaken, ?_⟩
          rw [hfill]
          exact (Except.ok.inj h).symm
    · rintro ⟨pairs, rest, hpairs, htext, htaken, rfl⟩
      rw [(hloop _).mpr ⟨pairs, rest, hpairs, htext, htaken, rfl⟩]
      rfl

theorem processJsonUuid_other (item : Json) (hnumber : ∀ n, item ≠ .number n)
    (hstring : ∀ text, item ≠ .string text) : processJsonUuid item = .error .erange := by
  cases item with
  | number n => exact absurd rfl (hnumber n)
  | string text => exact absurd rfl (hstring text)
  | _ => rfl

theorem fill_byte (pairs : List Pair) (hpairs : pairs.length = 16) (k : Nat) (hk : k < 16) :
    (fill (Vector.replicate 16 0) 15 pairs)[15 - k]? = pairs[k]?.map Pair.byte := by
  have hlist := fill_toList (Vector.replicate 16 0) 15 pairs (by decide) hpairs
  have hget : (fill (Vector.replicate 16 0) 15 pairs)[15 - k]? =
      (fill (Vector.replicate 16 0) 15 pairs).toList[15 - k]? := by simp
  have hback : 16 - 1 - (15 - k) = k := by omega
  have hlength : (pairs.map Pair.byte).length = 16 := by rw [List.length_map, hpairs]
  rw [hget, hlist, List.getElem?_append_left (by rw [List.length_reverse, hlength]; omega),
    List.getElem?_reverse (by rw [hlength]; omega), hlength, hback, List.getElem?_map]

theorem exactUuid_of_other (item : Json) (hnumber : ∀ n, item ≠ .number n)
    (hstring : ∀ text, item ≠ .string text) : ExactUuid item := by
  refine ⟨?_, ?_⟩
  · rw [processJsonUuid_other item hnumber hstring]
    simp only [reduceCtorEq, exists_false, false_iff]
    rintro (⟨n, hn, _⟩ | ⟨pairs, _, _, hs⟩)
    · exact hnumber n hn
    · exact hstring _ hs
  · intro pairs h
    exact absurd h.2.2 (hstring _)

theorem uuidString_bytes (item : Json) (pairs : List Pair) (h : UuidString item pairs) :
    ∃ value : Vector UInt8 16, processJsonUuid item = .ok (.u128 value) ∧
      ∀ k < 16, value[15 - k]? = pairs[k]?.map Pair.value := by
  obtain ⟨hpairs, hdigits, rfl⟩ := h
  refine ⟨_, (processJsonUuid_string _ _).mpr ⟨pairs, [], hpairs, (List.append_nil _).symm,
    fun pair hmem => (taken_iff pair).mpr (Or.inl (hdigits pair hmem)), rfl⟩, ?_⟩
  intro k hk
  rw [fill_byte pairs hpairs k hk]
  have hbound : k < pairs.length := by omega
  rw [List.getElem?_eq_getElem hbound]
  exact congrArg some (hdigits _ (List.getElem_mem hbound)).byte

theorem exactUuid_of_number (n : Int) : ExactUuid (.number n) := by
  refine ⟨?_, fun pairs h => absurd h.2.2 (by simp)⟩
  rw [processJsonUuid_number]
  by_cases hbounds : 1 ≤ n ∧ n ≤ 65535
  · simp [UuidNumber, UuidString, hbounds]
  · simp [UuidNumber, UuidString, hbounds]

theorem LooseUuid.accepted {item : Json} (h : LooseUuid item) :
    ∃ uuid, processJsonUuid item = .ok uuid := by
  obtain ⟨pairs, rest, hpairs, rfl, hloose, _⟩ := h
  have htaken : ∀ pair ∈ pairs, pair.Taken :=
    fun pair hmem => (taken_iff pair).mpr (hloose pair hmem)
  exact ⟨_, (processJsonUuid_string _ _).mpr ⟨pairs, rest, hpairs, rfl, htaken, rfl⟩⟩

theorem LooseUuid.not_exact {item : Json} (h : LooseUuid item) (pairs : List Pair) :
    ¬UuidString item pairs := by
  obtain ⟨pairs', rest, hpairs', rfl, _, hmore⟩ := h
  rintro ⟨hpairs, hdigits, hitem⟩
  have htext : uuidForm pairs' ++ rest = uuidForm pairs ++ [] := by
    rw [List.append_nil, Json.string.inj hitem]
  obtain ⟨rfl, rfl⟩ := form_inj uuidPieces pairs' pairs rest [] hpairs' hpairs htext
  rcases hmore with hrest | ⟨pair, hmem, hpadded⟩
  · exact hrest rfl
  · exact hpadded.not_digits (hdigits pair hmem)

-- What is accepted is in the form, or it is one of the loose strings.
theorem string_accepted (text : Text) (uuid : Uuid)
    (h : processJsonUuid (.string text) = .ok uuid) :
    (∃ pairs, UuidString (.string text) pairs) ∨ LooseUuid (.string text) := by
  obtain ⟨pairs, rest, hpairs, rfl, htaken, _⟩ := (processJsonUuid_string text uuid).mp h
  have htook := fun pair hmem => (taken_iff pair).mp (htaken pair hmem)
  by_cases hdigits : ∀ pair ∈ pairs, pair.Digits
  · by_cases hrest : rest = []
    · subst hrest
      exact Or.inl ⟨pairs, hpairs, hdigits, by rw [List.append_nil]⟩
    · exact Or.inr ⟨pairs, rest, hpairs, rfl, htook, Or.inl hrest⟩
  · obtain ⟨pair, hmem, hnot⟩ := not_forall₂.mp hdigits
    have hpadded := (htook pair hmem).resolve_left hnot
    exact Or.inr ⟨pairs, rest, hpairs, rfl, htook, Or.inr ⟨pair, hmem, hpadded⟩⟩

theorem exactUuid_string_iff (text : Text) :
    ExactUuid (.string text) ↔ ¬LooseUuid (.string text) := by
  constructor
  · intro hexact hloose
    rcases hexact.accepted.mp hloose.accepted with ⟨n, hn, _⟩ | ⟨pairs, hpairs⟩
    · cases hn
    · exact hloose.not_exact pairs hpairs
  · intro hnot
    refine ⟨⟨?_, ?_⟩, fun pairs h => uuidString_bytes _ pairs h⟩
    · rintro ⟨uuid, huuid⟩
      exact Or.inr ((string_accepted text uuid huuid).resolve_right hnot)
    · rintro (⟨n, hn, _⟩ | ⟨pairs, h⟩)
      · cases hn
      · obtain ⟨value, hvalue, _⟩ := uuidString_bytes _ pairs h
        exact ⟨_, hvalue⟩

theorem exactUuid_iff (item : Json) : ExactUuid item ↔ ¬LooseUuid item := by
  by_cases hstring : ∃ text, item = .string text
  · obtain ⟨text, rfl⟩ := hstring
    exact exactUuid_string_iff text
  · have hnot : ¬LooseUuid item := by
      rintro ⟨pairs, rest, _, hitem, _⟩
      exact hstring ⟨_, hitem⟩
    refine iff_of_true ?_ hnot
    by_cases hnumber : ∃ n, item = .number n
    · obtain ⟨n, rfl⟩ := hnumber
      exact exactUuid_of_number n
    · exact exactUuid_of_other item (fun n hn => hnumber ⟨n, hn⟩) (fun t ht => hstring ⟨t, ht⟩)

-- A sign in the place of the first digit: strtoul makes 2^64 - 5 of it, and the
-- last byte of that is stored.
theorem signed_uuid_accepted :
    processJsonUuid (.string (ascii "-5001101-0000-1000-8000-00805f9b34fb")) =
      .ok (.u128 #v[0xfb, 0x34, 0x9b, 0x5f, 0x80, 0x00, 0x00, 0x80, 0x00, 0x10, 0x00, 0x00, 0x01,
        0x11, 0x00, 0xfb]) ∧
    ¬ExactUuid (.string (ascii "-5001101-0000-1000-8000-00805f9b34fb")) := by
  have hread : processJsonUuid (.string (ascii "-5001101-0000-1000-8000-00805f9b34fb")) =
      .ok (.u128 #v[0xfb, 0x34, 0x9b, 0x5f, 0x80, 0x00, 0x00, 0x80, 0x00, 0x10, 0x00, 0x00, 0x01,
        0x11, 0x00, 0xfb]) := by
    decide +kernel
  refine ⟨hread, ?_⟩
  intro hexact
  rcases hexact.accepted.mp ⟨_, hread⟩ with ⟨n, hn, _⟩ | ⟨pairs, hpairs, hdigits, hitem⟩
  · cases hn
  · cases pairs with
    | nil => cases hpairs
    | cons pair pairs =>
        have hfirst : (ascii "-5001101-0000-1000-8000-00805f9b34fb").head? = some pair.1 := by
          rw [Json.string.inj hitem]
          rfl
        have hsign : (45 : UInt8) = pair.1 := Option.some.inj hfirst
        have hdigit := (hdigits pair List.mem_cons_self).1
        rw [← hsign] at hdigit
        exact absurd hdigit (by decide)

-- What stands behind the last digit is not looked at.
example : processJsonUuid (.string (ascii "00001101-0000-1000-8000-00805f9b34fb0")) =
    .ok (.u128 #v[0xfb, 0x34, 0x9b, 0x5f, 0x80, 0x00, 0x00, 0x80, 0x00, 0x10, 0x00, 0x00, 0x01,
      0x11, 0x00, 0x00]) := by
  decide +kernel

end Blehostd
