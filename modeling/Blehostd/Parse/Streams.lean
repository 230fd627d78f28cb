import Blehostd.Library.Buffer
import Blehostd.Parse.RoundTrip
import Blehostd.Requests.Reply

namespace Blehostd

-- strtok: behind the delimiters at the start, the characters up to the next one. A NUL
-- takes the place of that one, and the next call starts behind it.
def strtok (text : Text) : Option (Text × Text) :=
  let start := text.dropWhile isDelim
  if start = [] then none
  else some (start.takeWhile (!isDelim ·), (start.dropWhile (!isDelim ·)).drop 1)

theorem tokens_dropWhile (text : Text) : tokens (text.dropWhile isDelim) = tokens text := by
  induction text with
  | nil => rfl
  | cons c rest ih =>
      by_cases hc : isDelim c = true
      · have hskip : tokens (c :: rest) = tokens rest := by
          simp [tokens, List.splitOnP_cons_eq_if_modifyHead, hc]
        rw [List.dropWhile_cons_of_pos hc, ih, hskip]
      · rw [List.dropWhile_cons_of_neg hc]

theorem strtok_none (text : Text) (h : strtok text = none) : tokens text = [] := by
  by_cases hstart : text.dropWhile isDelim = []
  · rw [← tokens_dropWhile, hstart]
    rfl
  · simp [strtok, hstart] at h

-- What a call of strtok gives: the first of the pieces, and less text for the next call.
structure NextToken (text token next : Text) : Prop where
  nonempty : token ≠ []
  plain : ∀ c ∈ token, isDelim c = false
  tokens : tokens text = token :: tokens next
  shorter : next.length < text.length

-- The first piece of a text that starts with none of the delimiters.
theorem tokens_takeWhile (start : Text) (hpiece : start.takeWhile (!isDelim ·) ≠ []) :
    tokens start =
      start.takeWhile (!isDelim ·) :: tokens ((start.dropWhile (!isDelim ·)).drop 1) := by
  have hplain : ∀ c ∈ start.takeWhile (!isDelim ·), isDelim c = false := by
    intro c hc
    simpa using List.mem_takeWhile_imp hc
  have hparts := List.takeWhile_append_dropWhile (p := (!isDelim ·)) (l := start)
  cases hafter : start.dropWhile (!isDelim ·) with
  | nil =>
      rw [hafter, List.append_nil] at hparts
      have hempty : start ≠ [] := by
        rw [← hparts]
        exact hpiece
      rw [hparts] at hplain ⊢
      exact tokens_single start hplain hempty
  | cons c rest =>
      have hc : isDelim c = true := by
        have hsome : start.dropWhile (!isDelim ·) ≠ [] := by simp [hafter]
        have hhead := List.head_dropWhile_not (!isDelim ·) hsome
        simpa [hafter] using hhead
      rw [hafter] at hparts
      conv_lhs => rw [← hparts]
      exact tokens_cons _ c rest hplain hc hpiece

theorem strtok_some (text token next : Text) (h : strtok text = some (token, next)) :
    NextToken text token next := by
  obtain ⟨start, hstart⟩ : ∃ start, start = text.dropWhile isDelim := ⟨_, rfl⟩
  by_cases hempty : start = []
  · simp [strtok, ← hstart, hempty] at h
  · simp only [strtok, ← hstart, hempty, if_false, Option.some.injEq, Prod.mk.injEq] at h
    obtain ⟨rfl, rfl⟩ := h
    have hfirst : isDelim (start.head hempty) = false := by
      subst hstart
      simpa using List.head_dropWhile_not isDelim hempty
    have hpiece : start.takeWhile (!isDelim ·) ≠ [] := by
      rw [← List.cons_head_tail hempty, List.takeWhile_cons_of_pos (by simp [hfirst])]
      exact List.cons_ne_nil _ _
    refine ⟨hpiece, ?_, ?_, ?_⟩
    · intro c hc
      simpa using List.mem_takeWhile_imp hc
    · rw [← tokens_dropWhile, ← hstart]
      exact tokens_takeWhile start hpiece
    · have hparts := List.takeWhile_append_dropWhile (p := (!isDelim ·)) (l := start)
      have hlength := congrArg List.length hparts
      have hsome := List.length_pos_of_ne_nil hpiece
      have hshort : start.length ≤ text.length := by
        rw [hstart]
        exact List.length_dropWhile_le _ _
      rw [List.length_append] at hlength
      rw [List.length_drop]
      omega

theorem mem_tokens (text piece : Text) (hpiece : piece ∈ tokens text) :
    piece ≠ [] ∧ ∀ c ∈ piece, isDelim c = false := by
  obtain ⟨n, hn⟩ : ∃ n, n = text.length := ⟨_, rfl⟩
  induction n using Nat.strong_induction_on generalizing text with
  | _ n ih =>
      subst hn
      cases hnext : strtok text with
      | none =>
          rw [strtok_none text hnext] at hpiece
          exact absurd hpiece List.not_mem_nil
      | some next =>
          have h := strtok_some text next.1 next.2 hnext
          rw [h.tokens] at hpiece
          rcases List.mem_cons.mp hpiece with rfl | hlater
          · exact ⟨h.nonempty, h.plain⟩
          · exact ih next.2.length h.shorter next.2 hlater rfl

-- The loop of parse_arg_byte_stream_delim: its result, dst and *out_len. The first
-- character of the string is never one that strtok has put a NUL in the place of.
def byteStreamLoop (sval : Text) (maxLen : Nat) (left : Text) (dst : Buffer) (i outLen : Nat) :
    Rc × Buffer × Nat :=
  match _h : strtok left with
  | none => (none, dst, i)
  | some (token, next) =>
      if maxLen ≤ i then (some .einval, dst, outLen)
      else
        let (ul, endptr) := strtoul token
        if sval = [] ∨ endptr ≠ [] ∨ 255 < ul then (some .badToken, dst, outLen)
        else byteStreamLoop sval maxLen next (dst.put i (UInt8.ofNat ul)) (i + 1) outLen
termination_by left.length
decreasing_by exact (strtok_some left token next (by assumption)).shorter

def parseArgByteStreamInto (sval : Text) (maxLen : Nat) (dst : Buffer) (outLen : Nat) :
    Rc × Buffer × Nat :=
  byteStreamLoop sval maxLen sval dst 0 outLen

-- The buffer starts with the bytes, and nothing else has been written.
structure Filled (dst : Buffer) (bytes : List UInt8) : Prop where
  starts : dst.Starts bytes
  written : dst.written = List.range bytes.length

theorem filled_start (cells : Nat → UInt8) : Filled ⟨cells, []⟩ [] where
  starts i hi := absurd hi (Nat.not_lt_zero i)
  written := rfl

theorem Filled.put {dst : Buffer} {bytes : List UInt8} (h : Filled dst bytes) (byte : UInt8) :
    Filled (dst.put bytes.length byte) (bytes ++ [byte]) where
  starts := h.starts.put byte
  written := by
    rw [List.length_append, List.length_singleton, List.range_succ, ← h.written]
    rfl

-- The loop over strtok does what parseTokens does to the pieces.
theorem byteStreamLoop_eq (sval : Text) (maxLen : Nat) (left : Text) (dst : Buffer)
    (bytes : List UInt8) (outLen : Nat) (hdst : Filled dst bytes) :
    ∃ dst', Filled dst' (parseTokens sval maxLen (tokens left) bytes).2 ∧
      byteStreamLoop sval maxLen left dst bytes.length outLen =
        ((parseTokens sval maxLen (tokens left) bytes).1, dst',
          if (parseTokens sval maxLen (tokens left) bytes).1 = none then
            (parseTokens sval maxLen (tokens left) bytes).2.length
          else outLen) := by
  obtain ⟨n, hn⟩ : ∃ n, n = left.length := ⟨_, rfl⟩
  induction n using Nat.strong_induction_on generalizing left dst bytes with
  | _ n ih =>
      subst hn
      unfold byteStreamLoop
      split
      · rename_i hnone
        rw [strtok_none left hnone]
        exact ⟨dst, hdst, rfl⟩
      · rename_i token next hsome
        have htoken := strtok_some left token next hsome
        rw [htoken.tokens]
        simp only [parseTokens]
        by_cases hfull : maxLen ≤ bytes.length
        · rw [if_pos hfull, if_pos hfull]
          exact ⟨dst, hdst, rfl⟩
        · rw [if_neg hfull, if_neg hfull]
          by_cases hbad : sval = [] ∨ (strtoul token).2 ≠ [] ∨ 255 < (strtoul token).1
          · rw [if_pos hbad, if_pos hbad]
            exact ⟨dst, hdst, rfl⟩
          · rw [if_neg hbad, if_neg hbad]
            have hput := hdst.put (UInt8.ofNat (strtoul token).1)
            have hnext := ih next.length htoken.shorter next _ _ hput rfl
            rwa [List.length_append, List.length_singleton] at hnext

theorem parseTokens_none_iff (sval : Text) (maxLen : Nat) (pieces : List Text) (dst : List UInt8)
    (hsval : pieces ≠ [] → sval ≠ []) (hdst : dst.length ≤ maxLen) :
    (parseTokens sval maxLen pieces dst).1 = none ↔
      dst.length + pieces.length ≤ maxLen ∧ ∀ piece ∈ pieces, ∃ byte, ByteToken piece byte := by
  induction pieces generalizing dst with
  | nil => simp [parseTokens, hdst]
  | cons piece rest ih =>
      have hsval := hsval (List.cons_ne_nil _ _)
      rw [List.forall_mem_cons, List.length_cons]
      by_cases hfull : maxLen ≤ dst.length
      · simp only [parseTokens, hfull, if_true, reduceCtorEq, false_iff, not_and]
        omega
      · by_cases hbad : (strtoul piece).2 ≠ [] ∨ 255 < (strtoul piece).1
        · have hnot : ¬∃ byte, ByteToken piece byte := by
            rintro ⟨byte, hbyte⟩
            have hlt := byte.toNat_lt
            rw [hbyte] at hbad
            rcases hbad with hrest | hlarge
            · exact hrest rfl
            · simp only at hlarge
              omega
          simp [parseTokens, hfull, hbad, hnot]
        · have hread : ByteToken piece (UInt8.ofNat (strtoul piece).1) := by
            have hvalue : (UInt8.ofNat (strtoul piece).1).toNat = (strtoul piece).1 :=
              UInt8.toNat_ofNat_of_lt' (by simp only [UInt8.size]; omega)
            unfold ByteToken
            rw [hvalue]
            exact Prod.ext rfl (by_contra fun hrest => hbad (Or.inl hrest))
          have hrest := ih (dst ++ [UInt8.ofNat (strtoul piece).1]) (fun _ => hsval)
            (by rw [List.length_append, List.length_singleton]; omega)
          rw [List.length_append, List.length_singleton] at hrest
          simp only [parseTokens, hfull, hbad, hsval, if_false, or_self, hrest]
          refine and_congr ?_ ?_
          · omega
          · exact (and_iff_right ⟨_, hread⟩).symm

-- What strtoul takes in base 16, when there is no '-': blanks, '+', "0x" and digits.
-- All but the digits may be missing.
structure HexNumber (blanks plus pre digits : Text) : Prop where
  blank : ∀ c ∈ blanks, isspace c = true
  sign : plus = [] ∨ plus = ascii "+"
  radix : pre = [] ∨ pre = ascii "0x" ∨ pre = ascii "0X"
  digit : ∀ c ∈ digits, isHexDigit c = true
  nonempty : digits ≠ []

def ReadsAs (piece : Text) (value : Nat) : Prop :=
  ∃ blanks plus pre digits, HexNumber blanks plus pre digits ∧
    piece = blanks ++ (plus ++ (pre ++ digits)) ∧ hexValue digits = value

theorem skipHexPrefix_parts (pre digits : Text)
    (hpre : pre = [] ∨ pre = ascii "0x" ∨ pre = ascii "0X")
    (hdigits : ∀ c ∈ digits, isHexDigit c = true) (hsome : digits ≠ []) :
    skipHexPrefix (pre ++ digits) = digits := by
  obtain ⟨first, rest, rfl⟩ := List.exists_cons_of_ne_nil hsome
  have hfirst := hdigits first List.mem_cons_self
  rcases hpre with rfl | rfl | rfl
  · cases rest with
    | nil => rfl
    | cons second rest =>
        have hsecond := hdigits second (List.mem_cons_of_mem _ List.mem_cons_self)
        have hplain : ¬(second = 120 ∨ second = 88) := by
          rintro (rfl | rfl) <;> cases hsecond
        cases rest <;> simp [skipHexPrefix, hplain]
  · show skipHexPrefix (48 :: 120 :: first :: rest) = _
    simp [skipHexPrefix, hfirst]
  · show skipHexPrefix (48 :: 88 :: first :: rest) = _
    simp [skipHexPrefix, hfirst]

-- The first character of the number is neither a blank nor a sign.
theorem number_head (pre digits : Text) (hpre : pre = [] ∨ pre = ascii "0x" ∨ pre = ascii "0X")
    (hdigits : ∀ c ∈ digits, isHexDigit c = true) (hsome : digits ≠ []) :
    ∃ c rest, pre ++ digits = c :: rest ∧ isHexDigit c = true := by
  obtain ⟨first, rest, rfl⟩ := List.exists_cons_of_ne_nil hsome
  rcases hpre with rfl | rfl | rfl
  · exact ⟨first, rest, rfl, hdigits first List.mem_cons_self⟩
  · exact ⟨48, 120 :: first :: rest, rfl, rfl⟩
  · exact ⟨48, 88 :: first :: rest, rfl, rfl⟩

theorem strtoul_number (blanks plus pre digits : Text) (h : HexNumber blanks plus pre digits) :
    strtoul (blanks ++ (plus ++ (pre ++ digits))) = (min (hexValue digits) ULONG_MAX, []) := by
  obtain ⟨c, rest, hnumber, hc⟩ := number_head pre digits h.radix h.digit h.nonempty
  obtain ⟨hspace, hplus, hminus⟩ := plain_of_hexDigit c hc
  have hblanks : (blanks ++ (plus ++ (pre ++ digits))).dropWhile isspace =
      plus ++ (pre ++ digits) := by
    rw [List.dropWhile_append_of_pos h.blank, hnumber]
    rcases h.sign with rfl | rfl
    · exact List.dropWhile_cons_of_neg (by simp [hspace])
    · rfl
  have hsign : skipSign (plus ++ (pre ++ digits)) = (false, pre ++ digits) := by
    rcases h.sign with rfl | rfl
    · rw [List.nil_append, hnumber, skipSign_plain c rest hplus hminus]
    · rfl
  have hskip := skipHexPrefix_parts pre digits h.radix h.digit h.nonempty
  have htake : digits.takeWhile isHexDigit = digits := List.takeWhile_eq_self_iff.mpr h.digit
  have hdrop : digits.dropWhile isHexDigit = [] := List.dropWhile_eq_nil_iff.mpr h.digit
  simp only [strtoul, hblanks, hsign, hskip, htake, hdrop, h.nonempty, if_false,
    Bool.false_eq_true]
  split_ifs with hlarge
  · rw [Nat.min_eq_right (by omega)]
  · rw [Nat.min_eq_left (by omega)]

theorem skipSign_parts (text : Text) (hminus : ∀ c ∈ text, c ≠ 45) :
    ∃ plus, (plus = [] ∨ plus = ascii "+") ∧ text = plus ++ (skipSign text).2 := by
  cases text with
  | nil => exact ⟨[], Or.inl rfl, rfl⟩
  | cons c rest =>
      by_cases hplus : c = 43
      · subst hplus
        exact ⟨ascii "+", Or.inr rfl, rfl⟩
      · rw [skipSign_plain c rest hplus (hminus c List.mem_cons_self)]
        exact ⟨[], Or.inl rfl, rfl⟩

theorem skipHexPrefix_split (text : Text) :
    ∃ pre, (pre = [] ∨ pre = ascii "0x" ∨ pre = ascii "0X") ∧ text = pre ++ skipHexPrefix text := by
  unfold skipHexPrefix
  split
  · rename_i zero x digit rest
    split_ifs with hprefix
    · obtain ⟨rfl, rfl | rfl, _⟩ := hprefix
      · exact ⟨ascii "0x", Or.inr (Or.inl rfl), rfl⟩
      · exact ⟨ascii "0X", Or.inr (Or.inr rfl), rfl⟩
    · exact ⟨[], Or.inl rfl, rfl⟩
  · exact ⟨[], Or.inl rfl, rfl⟩

-- A text that strtoul takes to its end is such a number.
theorem number_of_strtoul (text : Text) (hminus : ∀ c ∈ text, c ≠ 45) (hsome : text ≠ [])
    (h : (strtoul text).2 = []) :
    ∃ blanks plus pre digits, HexNumber blanks plus pre digits ∧
      text = blanks ++ (plus ++ (pre ++ digits)) := by
  obtain ⟨unsigned, hunsigned⟩ : ∃ unsigned, unsigned = skipSign (text.dropWhile isspace) :=
    ⟨_, rfl⟩
  have hnoMinus : ∀ c ∈ text.dropWhile isspace, c ≠ 45 := by
    intro c hc
    exact hminus c ((List.dropWhile_sublist _).subset hc)
  obtain ⟨plus, hplus, hsign⟩ := skipSign_parts (text.dropWhile isspace) hnoMinus
  rw [← hunsigned] at hsign
  obtain ⟨pre, hpre, hskip⟩ := skipHexPrefix_split unsigned.2
  obtain ⟨digits, hdigits⟩ : ∃ digits, digits = skipHexPrefix unsigned.2 := ⟨_, rfl⟩
  rw [← hdigits] at hskip
  simp only [strtoul, ← hunsigned, ← hdigits] at h
  by_cases hnone : digits.takeWhile isHexDigit = []
  · simp only [hnone, if_true] at h
    exact absurd h hsome
  · rw [if_neg hnone] at h
    refine ⟨text.takeWhile isspace, plus, pre, digits, ⟨?_, hplus, hpre, ?_, ?_⟩, ?_⟩
    · intro c hc
      exact List.mem_takeWhile_imp hc
    · exact List.dropWhile_eq_nil_iff.mp h
    · rintro rfl
      exact hnone rfl
    · rw [← hskip, ← hsign, List.takeWhile_append_dropWhile]

theorem byteToken_iff (piece : Text) (hminus : ∀ c ∈ piece, c ≠ 45) (hsome : piece ≠ [])
    (byte : UInt8) : ByteToken piece byte ↔ ReadsAs piece byte.toNat := by
  have hlt := byte.toNat_lt
  have hmax : 256 ≤ ULONG_MAX := by decide
  unfold ByteToken
  constructor
  · intro h
    obtain ⟨blanks, plus, pre, digits, hnumber, rfl⟩ :=
      number_of_strtoul piece hminus hsome (congrArg Prod.snd h)
    refine ⟨blanks, plus, pre, digits, hnumber, rfl, ?_⟩
    rw [strtoul_number blanks plus pre digits hnumber] at h
    have hvalue := congrArg Prod.fst h
    simp only at hvalue
    omega
  · rintro ⟨blanks, plus, pre, digits, hnumber, rfl, hvalue⟩
    rw [strtoul_number blanks plus pre digits hnumber, hvalue, Nat.min_eq_left (by omega)]

theorem token_reads (text piece : Text) (hpiece : piece ∈ tokens text) (byte : UInt8) :
    ByteToken piece byte ↔ ReadsAs piece byte.toNat := by
  obtain ⟨hsome, hplain⟩ := mem_tokens text piece hpiece
  refine byteToken_iff piece ?_ hsome byte
  rintro _ hc rfl
  cases hplain 45 hc

theorem token_reads_byte (text piece : Text) (hpiece : piece ∈ tokens text) :
    (∃ byte, ByteToken piece byte) ↔ ∃ value ≤ 255, ReadsAs piece value := by
  constructor
  · rintro ⟨byte, hbyte⟩
    have hlt := byte.toNat_lt
    exact ⟨byte.toNat, by omega, (token_reads text piece hpiece byte).mp hbyte⟩
  · rintro ⟨value, hvalue, hreads⟩
    have hsame : (UInt8.ofNat value).toNat = value :=
      UInt8.toNat_ofNat_of_lt' (Nat.lt_succ_of_le hvalue)
    refine ⟨UInt8.ofNat value, (token_reads text piece hpiece _).mpr ?_⟩
    rwa [hsame]

-- The string is a list of at most maxLen bytes.
structure ByteStream (sval : Text) (maxLen : Nat) : Prop where
  fits : (tokens sval).length ≤ maxLen
  bytes : ∀ piece ∈ tokens sval, ∃ value ≤ 255, ReadsAs piece value

structure ParsesByteStream (sval : Text) (maxLen outLen : Nat) (result : Rc × Buffer × Nat) :
    Prop where
  accepts : result.1 = none ↔ ByteStream sval maxLen
  bytes : result.1 = none → ∃ bytes,
    List.Forall₂ (fun piece byte => ReadsAs piece byte.toNat) (tokens sval) bytes ∧
      result.2.1.Starts bytes ∧ result.2.2 = bytes.length
  written : ∃ n ≤ maxLen, result.2.1.written = List.range n
  failed : result.1 ≠ none → result.2.2 = outLen

theorem byteStreams_parsed (sval : Text) (maxLen : Nat) (cells : Nat → UInt8) (outLen : Nat) :
    ParsesByteStream sval maxLen outLen
      (parseArgByteStreamInto sval maxLen ⟨cells, []⟩ outLen) := by
  have hsval : tokens sval ≠ [] → sval ≠ [] := by
    rintro hsome rfl
    exact hsome rfl
  obtain ⟨dst, hfilled, hloop⟩ :=
    byteStreamLoop_eq sval maxLen sval ⟨cells, []⟩ [] outLen (filled_start cells)
  have haccepts := parseTokens_none_iff sval maxLen (tokens sval) [] hsval (Nat.zero_le _)
  have hlength := parseTokens_length sval maxLen (tokens sval) [] (Nat.zero_le _)
  rw [List.length_nil, Nat.zero_add] at haccepts
  rw [List.length_nil] at hloop
  unfold parseArgByteStreamInto
  rw [hloop]
  refine ⟨?_, ?_, ⟨_, hlength, hfilled.written⟩, ?_⟩
  · rw [haccepts]
    constructor
    · rintro ⟨hfits, hbytes⟩
      refine ⟨hfits, ?_⟩
      intro piece hpiece
      exact (token_reads_byte sval piece hpiece).mp (hbytes piece hpiece)
    · rintro ⟨hfits, hbytes⟩
      refine ⟨hfits, ?_⟩
      intro piece hpiece
      exact (token_reads_byte sval piece hpiece).mpr (hbytes piece hpiece)
  · intro hok
    simp only at hok
    obtain ⟨bytes, hout, hread⟩ := parseTokens_ok sval maxLen (tokens sval) [] _ (Prod.ext hok rfl)
    rw [List.nil_append] at hout
    refine ⟨bytes, ?_, hout ▸ hfilled.starts, ?_⟩
    · rw [List.forall₂_iff_get] at hread ⊢
      refine ⟨hread.1, ?_⟩
      intro k hk hk'
      exact (token_reads sval _ (List.get_mem _ _) _).mp (hread.2 k hk hk')
    · simp only [hok, if_true, hout]
  · intro hfailed
    exact if_neg hfailed

end Blehostd
