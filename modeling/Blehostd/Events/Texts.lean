import Blehostd.Requests.Theorems
import Blehostd.Util.Uuids

namespace Blehostd

-- Every byte is read back from its two digits, with "0x" in front of them or
-- without.
theorem strtoul_hexByte : ∀ n < 256, strtoul (hexByte (UInt8.ofNat n)) = (n, []) := by
  decide +kernel

theorem strtoul_prefixed :
    ∀ n < 256, strtoul (ascii "0x" ++ hexByte (UInt8.ofNat n)) = (n, []) := by
  decide +kernel

theorem hexByte_no_delim (byte : UInt8) : ∀ c ∈ hexByte byte, isDelim c = false := by
  have hall : ∀ n < 256, (hexByte (UInt8.ofNat n)).all (!isDelim ·) = true := by decide +kernel
  have hdigits := hall byte.toNat byte.toNat_lt
  rw [UInt8.ofNat_toNat] at hdigits
  intro c hc
  simpa using List.all_eq_true.mp hdigits c hc

-- What a byte of a list is written as.
structure Renders (render : UInt8 → Text) : Prop where
  value : ∀ byte, strtoul (render byte) = (byte.toNat, [])
  delim : ∀ byte, ∀ c ∈ render byte, isDelim c = false
  nonempty : ∀ byte, render byte ≠ []

theorem hexByte_renders : Renders hexByte where
  value byte := by
    have h := strtoul_hexByte byte.toNat byte.toNat_lt
    rwa [UInt8.ofNat_toNat] at h
  delim := hexByte_no_delim
  nonempty _ := List.cons_ne_nil _ _

theorem prefixed_renders : Renders fun byte => ascii "0x" ++ hexByte byte where
  value byte := by
    have h := strtoul_prefixed byte.toNat byte.toNat_lt
    rwa [UInt8.ofNat_toNat] at h
  delim byte := by
    have hzero : (ascii "0x").all (!isDelim ·) = true := by decide +kernel
    intro c hc
    rcases List.mem_append.mp hc with hprefix | hdigits
    · simpa using List.all_eq_true.mp hzero c hprefix
    · exact hexByte_renders.delim byte c hdigits
  nonempty _ := List.cons_ne_nil _ _

def colon : UInt8 := 58

theorem tokens_single (piece : Text) (hdelim : ∀ c ∈ piece, isDelim c = false)
    (hnonempty : piece ≠ []) : tokens piece = [piece] := by
  rw [tokens, List.splitOnP_eq_singleton hdelim]
  simp [hnonempty]

theorem tokens_cons (piece : Text) (delim : UInt8) (rest : Text)
    (hdelim : ∀ c ∈ piece, isDelim c = false) (hend : isDelim delim = true)
    (hnonempty : piece ≠ []) : tokens (piece ++ delim :: rest) = piece :: tokens rest := by
  rw [tokens, List.splitOnP_append_cons_of_forall_mem hdelim delim hend]
  simp [hnonempty, tokens]

-- The pieces with a colon between them.
theorem tokens_intersperse (render : UInt8 → Text) (h : Renders render) (bytes : List UInt8)
    (hbytes : bytes ≠ []) :
    tokens (((bytes.map render).intersperse [colon]).flatten) = bytes.map render := by
  induction bytes with
  | nil => exact absurd rfl hbytes
  | cons byte rest ih =>
      cases rest with
      | nil =>
          have hsingle := tokens_single (render byte) (h.delim byte) (h.nonempty byte)
          simpa using hsingle
      | cons next rest =>
          have hrest := ih (List.cons_ne_nil _ _)
          have hcons := tokens_cons (render byte) colon
            ((((next :: rest).map render).intersperse [colon]).flatten) (h.delim byte)
            (by decide) (h.nonempty byte)
          rw [hrest] at hcons
          simpa using hcons

theorem parseTokens_render (render : UInt8 → Text) (h : Renders render) (sval : Text)
    (hsval : sval ≠ []) (maxLen : Nat) (bytes dst : List UInt8)
    (hfits : dst.length + bytes.length ≤ maxLen) :
    parseTokens sval maxLen (bytes.map render) dst = (none, dst ++ bytes) := by
  induction bytes generalizing dst with
  | nil => simp [parseTokens]
  | cons byte rest ih =>
      rw [List.length_cons] at hfits
      have hroom : ¬maxLen ≤ dst.length := by omega
      have hbound : ¬255 < byte.toNat := by
        have := byte.toNat_lt
        omega
      have hrest := ih (dst ++ [byte]) (by simp; omega)
      simp only [List.map_cons, parseTokens, hroom, if_false, h.value, hsval, ne_eq,
        not_true_eq_false, hbound, or_self, UInt8.ofNat_toNat, hrest]
      simp

theorem flatten_intersperse (piece : Text) (rest : List Text) :
    ((piece :: rest).intersperse [colon]).flatten =
      piece ++ (rest.map fun other => colon :: other).flatten := by
  induction rest generalizing piece with
  | nil => simp
  | cons other rest ih =>
      have hrest := ih other
      simp only [List.intersperse_cons_cons, List.flatten_cons, hrest, List.map_cons,
        List.cons_append, List.nil_append]

-- What bhd_hex_str writes for a list of bytes in a buffer that is long enough.
def byteText (bytes : List UInt8) : Text :=
  ((bytes.map fun byte => ascii "0x" ++ hexByte byte).intersperse [colon]).flatten

def firstPiece (byte : UInt8) : Text :=
  ascii "0x" ++ hexByte byte

-- The text of a byte behind the first.
def laterPiece (byte : UInt8) : Text :=
  colon :: firstPiece byte

theorem firstPiece_length (byte : UInt8) : (firstPiece byte).length = 4 := rfl

theorem laterPiece_length (byte : UInt8) : (laterPiece byte).length = 5 := rfl

theorem laterPieces_length (bytes : List UInt8) :
    ((bytes.map laterPiece).flatten).length = 5 * bytes.length := by
  induction bytes with
  | nil => rfl
  | cons byte rest ih =>
      rw [List.map_cons, List.flatten_cons, List.length_append, ih, laterPiece_length,
        List.length_cons]
      omega

theorem byteText_cons (byte : UInt8) (rest : List UInt8) :
    byteText (byte :: rest) = firstPiece byte ++ (rest.map laterPiece).flatten := by
  rw [byteText, List.map_cons, flatten_intersperse, List.map_map]
  rfl

theorem byteText_length (bytes : List UInt8) : (byteText bytes).length = 5 * bytes.length - 1 := by
  cases bytes with
  | nil => rfl
  | cons byte rest =>
      rw [byteText_cons, List.length_append, firstPiece_length, laterPieces_length,
        List.length_cons]
      omega

-- Behind the first byte a whole piece takes five characters of the room, and one
-- more is left for the NUL.
theorem hexStrLoop_take (remLen : Nat) (dst : Text) (off : Nat) (src : List UInt8)
    (hoff : 0 < off) (hrem : 0 < remLen) :
    hexStrLoop remLen dst off src = (dst ++ ((src.map laterPiece).flatten).take (remLen - 1),
      off + 5 * min src.length ((remLen - 1) / 5)) := by
  induction src generalizing remLen dst off with
  | nil => simp [hexStrLoop]
  | cons byte rest ih =>
      have hpiece : ascii ":0x" ++ hexByte byte = laterPiece byte := rfl
      simp only [hexStrLoop, hoff, if_true, hpiece, laterPiece_length, List.map_cons,
        List.flatten_cons, List.take_append, List.length_cons]
      by_cases hcut : remLen ≤ 5
      · have hnone : remLen - 1 - 5 = 0 := by omega
        have hwhole : (remLen - 1) / 5 = 0 := by omega
        rw [if_pos hcut, hnone, hwhole]
        simp
      · have htake : (laterPiece byte).take (remLen - 1) = laterPiece byte :=
          List.take_of_length_le (by rw [laterPiece_length]; omega)
        have hroom : remLen - 5 - 1 = remLen - 1 - 5 := by omega
        rw [if_neg hcut, htake, ih (remLen - 5) _ (off + 5) (by omega) (by omega), hroom,
          List.append_assoc]
        apply Prod.ext
        · rfl
        · show off + 5 + 5 * min rest.length ((remLen - 1 - 5) / 5) =
            off + 5 * min (rest.length + 1) ((remLen - 1) / 5)
          omega

-- The text stops where the buffer ends, the offset after the last whole piece.
theorem hexStr_take (maxDstLen : Nat) (hmax : 0 < maxDstLen) (src : List UInt8) :
    hexStr maxDstLen src =
      ((byteText src).take (maxDstLen - 1), 5 * min src.length (maxDstLen / 5) - 1) := by
  cases src with
  | nil => simp [hexStr, hexStrLoop, byteText]
  | cons byte rest =>
      have hpiece : ascii "0x" ++ hexByte byte = firstPiece byte := rfl
      rw [byteText_cons, hexStr]
      simp only [hexStrLoop, Nat.lt_irrefl, if_false, hpiece, firstPiece_length, List.nil_append,
        Nat.zero_add, List.take_append, List.length_cons]
      by_cases hcut : maxDstLen ≤ 4
      · have hnone : maxDstLen - 1 - 4 = 0 := by omega
        have hwhole : maxDstLen / 5 = 0 := by omega
        rw [if_pos hcut, hnone, hwhole]
        simp
      · have htake : (firstPiece byte).take (maxDstLen - 1) = firstPiece byte :=
          List.take_of_length_le (by rw [firstPiece_length]; omega)
        have hroom : maxDstLen - 4 - 1 = maxDstLen - 1 - 4 := by omega
        rw [if_neg hcut, htake, hexStrLoop_take _ _ _ rest (by omega) (by omega), hroom]
        apply Prod.ext
        · rfl
        · show 4 + 5 * min rest.length ((maxDstLen - 1 - 4) / 5) =
            5 * min (rest.length + 1) (maxDstLen / 5) - 1
          omega

theorem hexStr_complete (maxDstLen : Nat) (bytes : List UInt8)
    (hroom : 5 * bytes.length ≤ maxDstLen) :
    hexStr maxDstLen bytes = (byteText bytes, (byteText bytes).length) := by
  cases bytes with
  | nil => rfl
  | cons byte rest =>
      have hlength := byteText_length (byte :: rest)
      rw [List.length_cons] at hroom hlength
      have hall : min (rest.length + 1) (maxDstLen / 5) = rest.length + 1 := by omega
      rw [hexStr_take maxDstLen (by omega), List.take_of_length_le (by omega), hlength,
        List.length_cons, hall]

theorem parse_rendered (render : UInt8 → Text) (h : Renders render) (bytes : List UInt8)
    (maxLen : Nat) (hbytes : bytes ≠ []) (hfits : bytes.length ≤ maxLen) :
    parseArgByteStream ((bytes.map render).intersperse [colon]).flatten maxLen = (none, bytes) := by
  have hsval : ((bytes.map render).intersperse [colon]).flatten ≠ [] := by
    cases bytes with
    | nil => exact absurd rfl hbytes
    | cons byte rest =>
        rw [List.map_cons, flatten_intersperse]
        simp [h.nonempty byte]
  unfold parseArgByteStream
  rw [tokens_intersperse render h bytes hbytes]
  have hparse := parseTokens_render render h _ hsval maxLen bytes [] (by simpa using hfits)
  simpa using hparse

theorem parse_byteText (bytes : List UInt8) (maxLen : Nat) (hfits : bytes.length ≤ maxLen) :
    parseArgByteStream (byteText bytes) maxLen = (none, bytes) := by
  by_cases hbytes : bytes = []
  · rw [hbytes]
    rfl
  · exact parse_rendered _ prefixed_renders bytes maxLen hbytes hfits

-- A byte string is read back.
theorem byteString_read (bytes : List UInt8) (maxLen : Nat) (hfits : bytes.length ≤ maxLen) :
    processJsonHexString maxLen (createByteString bytes) = .ok bytes := by
  unfold createByteString
  rw [hexStr_complete _ bytes (by omega)]
  simp only [processJsonHexString, processJsonString, parse_byteText bytes maxLen hfits, checked]

-- An address is written from its last byte to its first.
theorem parseArgMac_addr (addr : Addr) : parseArgMac (addrStr addr) = (none, addr.toList) := by
  have hlength : addr.toList.reverse.length = 6 := by simp
  have hnonempty : addr.toList.reverse ≠ [] := by
    intro hnil
    rw [hnil] at hlength
    cases hlength
  have hparse : parseArgByteStream (addrStr addr) 6 = (none, addr.toList.reverse) :=
    parse_rendered hexByte hexByte_renders addr.toList.reverse 6 hnonempty (Nat.le_of_eq hlength)
  have hexact : parseArgByteStreamExactLength (addrStr addr) 6 = (none, addr.toList.reverse) := by
    unfold parseArgByteStreamExactLength
    simp only [hparse, hlength, ne_eq, not_true_eq_false, if_false]
  unfold parseArgMac
  simp only [hexact, ne_eq, not_true_eq_false, if_false, List.reverse_reverse]

theorem addr_read (addr : Addr) : processJsonAddr (.string (addrStr addr)) = .ok addr := by
  obtain ⟨⟨bytes⟩, hbytes⟩ := addr
  have hlength : bytes.length = 6 := hbytes
  simp [processJsonAddr, processJsonString, parseArgMac_addr, checked, bind, Except.bind,
    Vector.toList, hlength]

-- The text of a 128-bit UUID is read back.
def hexPair (byte : UInt8) : Pair :=
  ((hexByte byte).headD 0, (hexByte byte).getLastD 0)

theorem hexPair_text (byte : UInt8) : [(hexPair byte).1, (hexPair byte).2] = hexByte byte :=
  rfl

theorem hexPair_taken (byte : UInt8) : (hexPair byte).Taken := by
  unfold Pair.Taken
  rw [hexPair_text, hexByte_renders.value]

theorem hexPair_byte (byte : UInt8) : (hexPair byte).byte = byte := by
  unfold Pair.byte
  rw [hexPair_text, hexByte_renders.value, UInt8.ofNat_toNat]

theorem canonicalUuid_form (value : Vector UInt8 16) :
    canonicalUuid (.u128 value) = uuidForm (value.toList.reverse.map hexPair) := by
  obtain ⟨⟨bytes⟩, hbytes⟩ := value
  match bytes, hbytes with
  | [b0, b1, b2, b3, b4, b5, b6, b7, b8, b9, b10, b11, b12, b13, b14, b15], _ => rfl

def uuidLength : Uuid → Nat
  | .u16 _ => 6
  | .u32 _ => 10
  | .u128 _ => 36

theorem canonicalUuid_size (uuid : Uuid) : (canonicalUuid uuid).length = uuidLength uuid := by
  cases uuid with
  | u16 value => rfl
  | u32 value => rfl
  | u128 value =>
      rw [canonicalUuid_form, uuidForm_length _ (by simp)]
      rfl

theorem uuidText_read (value : Vector UInt8 16) :
    processJsonUuid (.string (canonicalUuid (.u128 value))) = .ok (.u128 value) := by
  have hpairs : (value.toList.reverse.map hexPair).length = 15 + 1 := by simp
  have hbytes : (value.toList.reverse.map hexPair).map Pair.byte = value.toList.reverse := by
    rw [List.map_map]
    exact List.map_id'' hexPair_byte _
  have hfill : fill (Vector.replicate 16 0) 15 (value.toList.reverse.map hexPair) = value := by
    apply Vector.toList_inj.mp
    rw [fill_toList _ 15 _ (by decide) hpairs, hbytes]
    simp
  rw [processJsonUuid_string]
  refine ⟨value.toList.reverse.map hexPair, [], hpairs, ?_, ?_, ?_⟩
  · rw [canonicalUuid_form, List.append_nil]
  · intro pair hmem
    obtain ⟨byte, _, rfl⟩ := List.mem_map.mp hmem
    exact hexPair_taken byte
  · rw [hfill]

end Blehostd
