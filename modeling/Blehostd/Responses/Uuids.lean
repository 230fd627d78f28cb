import Blehostd.Events.Texts

namespace Blehostd

def lowerDigit (c : UInt8) : Bool :=
  48 ≤ c && c ≤ 57 || 97 ≤ c && c ≤ 102

def Pair.Lower (pair : Pair) : Prop :=
  lowerDigit pair.1 = true ∧ lowerDigit pair.2 = true

-- "%02x" writes the lower-case digits and no others.
def digitOf (n : Nat) : UInt8 :=
  UInt8.ofNat (if n < 10 then 48 + n else 87 + n)

theorem lowerDigit_written : ∀ n < 256, lowerDigit (UInt8.ofNat n) = true →
    ∃ k < 16, UInt8.ofNat n = digitOf k := by
  decide +kernel

theorem hexPair_digits : ∀ n < 16, ∀ m < 16,
    hexPair (UInt8.ofNat (16 * n + m)) = (digitOf n, digitOf m) := by
  decide +kernel

theorem Pair.Lower.written {pair : Pair} (h : pair.Lower) : ∃ byte, pair = hexPair byte := by
  have hwritten : ∀ c, lowerDigit c = true → ∃ k < 16, c = digitOf k := by
    intro c hc
    have hfinite := lowerDigit_written c.toNat c.toNat_lt
    rw [UInt8.ofNat_toNat] at hfinite
    exact hfinite hc
  obtain ⟨n, hn, hfirst⟩ := hwritten pair.1 h.1
  obtain ⟨m, hm, hsecond⟩ := hwritten pair.2 h.2
  refine ⟨UInt8.ofNat (16 * n + m), ?_⟩
  rw [hexPair_digits n hn m hm, ← hfirst, ← hsecond]

section Encoding

variable (uuidToStr : Uuid → Text)
  (hstr : ∀ value, uuidToStr (.u128 value) = canonicalUuid (.u128 value))

include hstr

-- A UUID that a request has given comes back in a response that gives it again.
theorem created_uuid_read (item : Json) (uuid : Uuid) (h : processJsonUuid item = .ok uuid) :
    ∃ created, createUuid uuidToStr (.known uuid) = .ok created ∧
      processJsonUuid created = .ok uuid := by
  by_cases hnumber : ∃ n, item = .number n
  · obtain ⟨n, rfl⟩ := hnumber
    rw [processJsonUuid_number] at h
    split_ifs at h with hbounds
    obtain rfl := Except.ok.inj h
    refine ⟨_, rfl, ?_⟩
    rw [toNat_ofInt_half n (by omega) (by omega), processJsonUuid_number, if_pos hbounds]
  · have hvalue : ∃ value, uuid = .u128 value := by
      by_cases hstring : ∃ text, item = .string text
      · obtain ⟨text, rfl⟩ := hstring
        obtain ⟨pairs, rest, _, _, _, huuid⟩ := (processJsonUuid_string text uuid).mp h
        exact ⟨_, huuid⟩
      · rw [processJsonUuid_other item (fun n hn => hnumber ⟨n, hn⟩)
          (fun text ht => hstring ⟨text, ht⟩)] at h
        cases h
    obtain ⟨value, rfl⟩ := hvalue
    refine ⟨_, rfl, ?_⟩
    rw [hstr, uuidText_read]

-- A string in lower case is written again as it was.
theorem read_uuid_created (pairs : List Pair) (hpairs : pairs.length = 16)
    (hlower : ∀ pair ∈ pairs, pair.Lower) :
    ∃ uuid, processJsonUuid (.string (uuidForm pairs)) = .ok uuid ∧
      createUuid uuidToStr (.known uuid) = .ok (.string (uuidForm pairs)) := by
  have htaken : ∀ pair ∈ pairs, pair.Taken := by
    intro pair hmem
    obtain ⟨byte, rfl⟩ := (hlower pair hmem).written
    exact hexPair_taken byte
  have hback : (pairs.map Pair.byte).map hexPair = pairs := by
    rw [List.map_map, List.map_congr_left (g := id), List.map_id]
    intro pair hmem
    obtain ⟨byte, rfl⟩ := (hlower pair hmem).written
    exact congrArg hexPair (hexPair_byte byte)
  have hlist := fill_toList (Vector.replicate 16 0) 15 pairs (by decide) hpairs
  have hrest : (Vector.replicate 16 (0 : UInt8)).toList.drop (15 + 1) = [] := rfl
  refine ⟨_, (processJsonUuid_string _ _).mpr ⟨pairs, [], hpairs, (List.append_nil _).symm,
    htaken, rfl⟩, ?_⟩
  rw [createUuid, hstr, canonicalUuid_form, hlist, hrest, List.append_nil, List.reverse_reverse,
    hback]

theorem uuids_survive :
    (∀ item uuid, processJsonUuid item = .ok uuid →
      ∃ created, createUuid uuidToStr (.known uuid) = .ok created ∧
        processJsonUuid created = .ok uuid) ∧
    ∀ pairs : List Pair, pairs.length = 16 → (∀ pair ∈ pairs, pair.Lower) →
      ∃ uuid, processJsonUuid (.string (uuidForm pairs)) = .ok uuid ∧
        createUuid uuidToStr (.known uuid) = .ok (.string (uuidForm pairs)) :=
  ⟨created_uuid_read uuidToStr hstr, read_uuid_created uuidToStr hstr⟩

end Encoding

-- The number 0x180f, and the string "1a1a1a1a-1a1a-1a1a-1a1a-1a1a1a1a1a1a".
theorem uuids_survive_both :
    (∃ created, createUuid canonicalUuid (.known (.u16 0x180f)) = .ok created ∧
      processJsonUuid created = .ok (.u16 0x180f)) ∧
    ∃ uuid, processJsonUuid (.string (uuidForm (List.replicate 16 (0x31, 0x61)))) = .ok uuid ∧
      createUuid canonicalUuid (.known uuid) =
        .ok (.string (uuidForm (List.replicate 16 (0x31, 0x61)))) := by
  have hsurvive := uuids_survive canonicalUuid fun _ => rfl
  refine ⟨hsurvive.1 (.number 0x180f) (.u16 0x180f) (by decide +kernel), ?_⟩
  apply hsurvive.2 _ (by decide)
  intro pair hmem
  rw [List.eq_of_mem_replicate hmem]
  exact ⟨by decide, by decide⟩

end Blehostd
