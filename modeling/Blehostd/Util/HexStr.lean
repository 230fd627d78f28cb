import Blehostd.Events.Texts
import Blehostd.Library.Buffer

namespace Blehostd

-- bhd_hex_str in memory: the loop with the index of the byte, the room that is left
-- and the offset.
def hexStrIntoLoop : Buffer → Nat → Nat → Nat → List UInt8 → Buffer × Nat
  | dst, _, off, _, [] => (dst, off)
  | dst, remLen, off, i, byte :: rest =>
      let text := (if 0 < i then ascii ":" else []) ++ (ascii "0x" ++ hexByte byte)
      let dst := dst.snprintf off remLen text
      if remLen ≤ text.length then (dst, off)
      else hexStrIntoLoop dst (remLen - text.length) (off + text.length) (i + 1) rest

-- The string in dst, and *out_dst_len.
def hexStrInto (dst : Buffer) (maxDstLen : Nat) (src : List UInt8) : Buffer × Nat :=
  let dst := if 1 ≤ maxDstLen then dst.put 0 0 else dst
  hexStrIntoLoop dst maxDstLen 0 0 src

theorem firstPiece_noNul (byte : UInt8) : ∀ c ∈ firstPiece byte, c ≠ 0 := by
  have hall : ∀ n < 256, (firstPiece (UInt8.ofNat n)).all (· != 0) = true := by decide +kernel
  have hpiece := hall byte.toNat byte.toNat_lt
  rw [UInt8.ofNat_toNat] at hpiece
  intro c hc
  simpa using List.all_eq_true.mp hpiece c hc

theorem laterPiece_noNul (byte : UInt8) : ∀ c ∈ laterPiece byte, c ≠ 0 := by
  intro c hc
  rcases List.mem_cons.mp hc with rfl | hrest
  · decide
  · exact firstPiece_noNul byte c hrest

-- The string in memory is the text of hexStrLoop, as long as there is room for a NUL.
theorem hexStrIntoLoop_holds (dst : Buffer) (remLen i : Nat) (text : Text) (src : List UInt8)
    (hdst : dst.Holds text) (hrem : 0 < remLen) (hi : 0 < i ↔ 0 < text.length) :
    (hexStrIntoLoop dst remLen text.length i src).1.Holds
        (hexStrLoop remLen text text.length src).1 ∧
      (hexStrIntoLoop dst remLen text.length i src).2 =
        (hexStrLoop remLen text text.length src).2 := by
  induction src generalizing dst remLen i text with
  | nil => exact ⟨hdst, rfl⟩
  | cons byte rest ih =>
      obtain ⟨piece, hpiece⟩ : ∃ piece, piece =
          (if 0 < i then ascii ":" else []) ++ (ascii "0x" ++ hexByte byte) := ⟨_, rfl⟩
      have hsame :
          (if 0 < text.length then ascii ":0x" else ascii "0x") ++ hexByte byte = piece := by
        simp only [hpiece, ← hi]
        split_ifs <;> rfl
      have hnoNul : ∀ c ∈ piece, c ≠ 0 := by
        rw [hpiece]
        split_ifs
        · exact laterPiece_noNul byte
        · exact firstPiece_noNul byte
      have hsome : 0 < piece.length := by
        rw [hpiece, List.length_append, List.length_append]
        show 0 < _ + (2 + 2)
        omega
      have hprinted := hdst.snprintf remLen hrem piece hnoNul
      simp only [hexStrIntoLoop, hexStrLoop, ← hpiece, hsame]
      by_cases hcut : remLen ≤ piece.length
      · rw [if_pos hcut, if_pos hcut]
        exact ⟨hprinted, rfl⟩
      · have hwhole : piece.take (remLen - 1) = piece := List.take_of_length_le (by omega)
        rw [if_neg hcut, if_neg hcut]
        rw [hwhole] at hprinted ⊢
        have hnext := ih _ (remLen - piece.length) (i + 1) (text ++ piece) hprinted (by omega)
          (by rw [List.length_append]; omega)
        rwa [List.length_append] at hnext

theorem hexStrInto_holds (dst : Buffer) (maxDstLen : Nat) (hmax : 1 ≤ maxDstLen)
    (src : List UInt8) :
    (hexStrInto dst maxDstLen src).1.Holds (hexStr maxDstLen src).1 ∧
      (hexStrInto dst maxDstLen src).2 = (hexStr maxDstLen src).2 := by
  have hempty : (dst.put 0 0).Holds [] := (Buffer.holds_nil _).mpr rfl
  have hloop := hexStrIntoLoop_holds (dst.put 0 0) maxDstLen 0 [] src hempty hmax Iff.rfl
  simp only [hexStrInto, hmax, if_true, hexStr]
  exact hloop

-- The number of bytes in the longest prefix whose rendering fits, with its NUL.
structure LongestFit (maxDstLen : Nat) (src : List UInt8) (k : Nat) : Prop where
  within : k ≤ src.length
  fits : (byteText (src.take k)).length ≤ maxDstLen - 1
  longest : ∀ j ≤ src.length, (byteText (src.take j)).length ≤ maxDstLen - 1 → j ≤ k

theorem longestFit_iff (maxDstLen : Nat) (hmax : 1 ≤ maxDstLen) (src : List UInt8) (k : Nat) :
    LongestFit maxDstLen src k ↔ k = min src.length (maxDstLen / 5) := by
  have hfits : ∀ j ≤ src.length,
      (byteText (src.take j)).length ≤ maxDstLen - 1 ↔ j ≤ maxDstLen / 5 := by
    intro j hj
    rw [byteText_length, List.length_take, Nat.min_eq_left hj]
    omega
  constructor
  · intro h
    have hk := (hfits k h.within).mp h.fits
    have hlongest := h.longest (min src.length (maxDstLen / 5)) (by omega)
      ((hfits _ (by omega)).mpr (by omega))
    have hwithin := h.within
    omega
  · rintro rfl
    refine ⟨by omega, (hfits _ (by omega)).mpr (by omega), ?_⟩
    intro j hj hfit
    have := (hfits j hj).mp hfit
    omega

theorem laterPieces_take (bytes : List UInt8) (k : Nat) :
    ((bytes.take k).map laterPiece).flatten = ((bytes.map laterPiece).flatten).take (5 * k) := by
  induction bytes generalizing k with
  | nil => simp
  | cons byte rest ih =>
      cases k with
      | zero => simp
      | succ k =>
          have hwhole : (laterPiece byte).take (5 * (k + 1)) = laterPiece byte :=
            List.take_of_length_le (by rw [laterPiece_length]; omega)
          have hrest : 5 * (k + 1) - 5 = 5 * k := by omega
          rw [List.take_succ_cons, List.map_cons, List.flatten_cons, ih, List.map_cons,
            List.flatten_cons, List.take_append, hwhole, laterPiece_length, hrest]

-- The rendering of a prefix is the start of the rendering.
theorem byteText_take (src : List UInt8) (k : Nat) :
    byteText (src.take k) = (byteText src).take (5 * k - 1) := by
  cases src with
  | nil => simp [byteText]
  | cons byte rest =>
      cases k with
      | zero => simp [byteText]
      | succ k =>
          have hwhole : (firstPiece byte).take (5 * (k + 1) - 1) = firstPiece byte :=
            List.take_of_length_le (by rw [firstPiece_length]; omega)
          have hrest : 5 * (k + 1) - 1 - 4 = 5 * k := by omega
          rw [List.take_succ_cons, byteText_cons, laterPieces_take, byteText_cons,
            List.take_append, hwhole, firstPiece_length, hrest]

-- The string is the rendering of the longest prefix that fits, and its length is
-- reported.
def CutsCleanly (maxDstLen : Nat) (src : List UInt8) : Prop :=
  ∀ dst : Buffer, ∃ k, LongestFit maxDstLen src k ∧
    (hexStrInto dst maxDstLen src).1.Holds (byteText (src.take k)) ∧
      (hexStrInto dst maxDstLen src).2 = (byteText (src.take k)).length

theorem cuts_cleanly_iff (maxDstLen : Nat) (src : List UInt8) (hmax : 1 ≤ maxDstLen) :
    CutsCleanly maxDstLen src ↔
      5 * src.length ≤ maxDstLen ∨ maxDstLen = 1 ∨ maxDstLen % 5 = 0 := by
  have htake := hexStr_take maxDstLen hmax src
  have hlength := byteText_length src
  constructor
  · intro hclean
    obtain ⟨k, hk, hstring, _⟩ := hclean ⟨fun _ => 0, []⟩
    obtain rfl := (longestFit_iff maxDstLen hmax src k).mp hk
    have hheld := (hexStrInto_holds ⟨fun _ => 0, []⟩ maxDstLen hmax src).1
    have hsame := congrArg List.length (hheld.unique hstring)
    rw [htake, List.length_take, hlength, byteText_length, List.length_take] at hsame
    omega
  · intro hroom dst
    obtain ⟨hheld, hreported⟩ := hexStrInto_holds dst maxDstLen hmax src
    have hk := (longestFit_iff maxDstLen hmax src (min src.length (maxDstLen / 5))).mpr rfl
    have hclean : (byteText src).take (maxDstLen - 1) =
        byteText (src.take (min src.length (maxDstLen / 5))) := by
      rw [byteText_take]
      by_cases hall : 5 * src.length ≤ maxDstLen
      · rw [List.take_of_length_le (by omega), List.take_of_length_le (by omega)]
      · have hcut : maxDstLen - 1 = 5 * min src.length (maxDstLen / 5) - 1 := by omega
        rw [← hcut]
    refine ⟨_, hk, ?_, ?_⟩
    · rw [← hclean]
      rwa [htake] at hheld
    · rw [hreported, htake, byteText_length, List.length_take]
      omega

-- Two whole bytes and their NUL fill a buffer of ten.
theorem ten_cuts_cleanly : CutsCleanly 10 [0x01, 0xab, 0xff] :=
  (cuts_cleanly_iff 10 [0x01, 0xab, 0xff] (by decide)).mpr (Or.inr (Or.inr rfl))

-- In a buffer of eight the colon and the first two characters of an element are
-- left behind the four that are reported.
theorem eight_cuts_inside : ¬CutsCleanly 8 [0x01, 0xab] := by
  intro hclean
  obtain ⟨k, hk, hstring, hreported⟩ := hclean ⟨fun _ => 0, []⟩
  have hchar := hstring.ends
  rw [← hreported] at hchar
  revert hchar
  decide +kernel

end Blehostd
