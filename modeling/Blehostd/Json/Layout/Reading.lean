import Mathlib.Data.Nat.Digits.Lemmas
import Blehostd.Json.Layout
import Blehostd.Library.Code

namespace Blehostd

open Code (Readable)
open Json (layout layoutItems layoutMembers escape quote decimal tabs)

def isDigit (c : UInt8) : Bool :=
  48 ≤ c && c ≤ 57

-- A text that cannot go on with a number.
def Ends (text : Text) : Prop :=
  ∀ c rest, text = c :: rest → isDigit c = false

theorem ends_nil : Ends [] := by
  intro c rest h
  cases h

theorem ends_cons {c : UInt8} (h : isDigit c = false) (rest : Text) : Ends (c :: rest) := by
  intro other tail heq
  rw [← (List.cons.inj heq).1]
  exact h

-- A character that is written with a backslash.
def isEscaped (c : UInt8) : Bool :=
  c = 34 || c = 92 || c < 32

def escapedChars : List UInt8 :=
  ((List.range 256).map UInt8.ofNat).filter isEscaped

theorem escape_plain (c : UInt8) (h : isEscaped c = false) : escape c = [c] := by
  simp only [isEscaped, Bool.or_eq_false_iff, decide_eq_false_iff_not] at h
  obtain ⟨⟨hquote, hback⟩, hcontrol⟩ := h
  have hne (k : UInt8) (hk : k < 32) : ¬c = k := by
    intro heq
    rw [heq] at hcontrol
    exact hcontrol hk
  unfold escape
  rw [if_neg (not_or.mpr ⟨hquote, hback⟩), if_neg (hne 8 (by decide)), if_neg (hne 9 (by decide)),
    if_neg (hne 10 (by decide)), if_neg (hne 12 (by decide)), if_neg (hne 13 (by decide)),
    if_neg hcontrol]

theorem mem_escapedChars (c : UInt8) (h : isEscaped c = true) : c ∈ escapedChars := by
  refine List.mem_filter.mpr ⟨List.mem_map.mpr ⟨c.toNat, ?_, UInt8.ofNat_toNat⟩, h⟩
  exact List.mem_range.mpr c.toNat_lt

theorem escape_escaped : (escapedChars.all fun c => (escape c).head? = some 92) = true := by
  decide +kernel

theorem escape_apart : (escapedChars.all fun a => escapedChars.all fun b =>
    a = b || !(escape a).isPrefixOf (escape b)) = true := by
  decide +kernel

theorem escape_head (c : UInt8) (h : isEscaped c = true) : ∃ word, escape c = 92 :: word := by
  have hhead := of_decide_eq_true (List.all_eq_true.mp escape_escaped c (mem_escapedChars c h))
  exact List.head?_eq_some_iff.mp hhead

theorem escape_prefixFree (a b : UInt8) (h : escape a <+: escape b) : a = b := by
  have hback (c : UInt8) (hc : isEscaped c = false) : c ≠ 92 := by
    intro heq
    rw [heq] at hc
    exact absurd hc (by decide)
  cases ha : isEscaped a with
  | false =>
      rw [escape_plain a ha] at h
      cases hb : isEscaped b with
      | false =>
          rw [escape_plain b hb] at h
          exact (List.cons_prefix_cons.mp h).1
      | true =>
          obtain ⟨word, hword⟩ := escape_head b hb
          rw [hword] at h
          exact absurd (List.cons_prefix_cons.mp h).1 (hback a ha)
  | true =>
      cases hb : isEscaped b with
      | false =>
          obtain ⟨word, hword⟩ := escape_head a ha
          rw [hword, escape_plain b hb] at h
          exact absurd (List.cons_prefix_cons.mp h).1.symm (hback b hb)
      | true =>
          have hall := List.all_eq_true.mp (List.all_eq_true.mp escape_apart a
            (mem_escapedChars a ha)) b (mem_escapedChars b hb)
          simpa [List.isPrefixOf_iff_prefix.mpr h] using hall

theorem escape_not_quote (c : UInt8) : ∃ first word, escape c = first :: word ∧ first ≠ 34 := by
  cases hc : isEscaped c with
  | false =>
      refine ⟨c, [], escape_plain c hc, ?_⟩
      intro heq
      rw [heq] at hc
      exact absurd hc (by decide)
  | true =>
      obtain ⟨word, hword⟩ := escape_head c hc
      exact ⟨92, word, hword, by decide⟩

theorem quote_read (key other rest later : Text) (h : quote key ++ rest = quote other ++ later) :
    key = other ∧ rest = later := by
  have hread := (Code.readable_of_prefixFree escape_prefixFree).delimited 34 escape_not_quote
  have htail := (List.cons.inj h).2
  exact hread key other rest later trivial trivial htail

-- The digits of a number, without its sign.
def digitsOf (n : Nat) : Text :=
  if n = 0 then [48] else (Nat.digits 10 n).reverse.map fun d => UInt8.ofNat (48 + d)

def digitsValue (text : Text) : Nat :=
  Nat.ofDigits 10 (text.reverse.map fun c => c.toNat - 48)

theorem decimal_eq (n : Int) :
    decimal n = (if n < 0 then [45] else []) ++ digitsOf n.natAbs := by
  unfold decimal digitsOf
  by_cases hzero : n = 0
  · subst hzero
    rfl
  · by_cases hneg : n < 0 <;> simp [hzero, hneg]

theorem digitsValue_digitsOf (n : Nat) : digitsValue (digitsOf n) = n := by
  unfold digitsValue digitsOf
  by_cases hzero : n = 0
  · subst hzero
    rfl
  · rw [if_neg hzero, ← List.map_reverse, List.reverse_reverse, List.map_map]
    have hsame : (Nat.digits 10 n).map ((fun c : UInt8 => c.toNat - 48) ∘
        fun d => UInt8.ofNat (48 + d)) = Nat.digits 10 n := by
      refine (List.map_congr_left ?_).trans (List.map_id _)
      intro d hd
      have hlt := Nat.digits_lt_base (by decide) hd
      simp only [Function.comp_apply, UInt8.toNat_ofNat', id]
      omega
    rw [hsame, Nat.ofDigits_digits]

theorem digitsOf_digits (n : Nat) : ∀ c ∈ digitsOf n, isDigit c = true := by
  have hdigit : ∀ d < 10, isDigit (UInt8.ofNat (48 + d)) = true := by decide
  intro c hc
  unfold digitsOf at hc
  split_ifs at hc
  · rw [List.mem_singleton.mp hc]
    decide
  · obtain ⟨d, hd, rfl⟩ := List.mem_map.mp hc
    exact hdigit d (Nat.digits_lt_base (by decide) (List.mem_reverse.mp hd))

theorem digitsOf_ne_nil (n : Nat) : digitsOf n ≠ [] := by
  unfold digitsOf
  split_ifs with hzero
  · simp
  · simpa [Nat.digits_eq_nil_iff_eq_zero] using hzero

theorem takeWhile_digits (digits rest : Text) (hdigits : ∀ c ∈ digits, isDigit c = true)
    (hends : Ends rest) : (digits ++ rest).takeWhile isDigit = digits := by
  rw [List.takeWhile_append_of_pos hdigits]
  cases rest with
  | nil => simp
  | cons c rest => simp [hends c rest rfl]

theorem digits_read : Readable Ends digitsOf := by
  intro n m rest other hrest hother h
  have hword := congrArg (List.takeWhile isDigit) h
  rw [takeWhile_digits _ _ (digitsOf_digits n) hrest,
    takeWhile_digits _ _ (digitsOf_digits m) hother] at hword
  rw [hword] at h
  refine ⟨?_, List.append_cancel_left h⟩
  rw [← digitsValue_digitsOf n, hword, digitsValue_digitsOf]

theorem digitsOf_head (n : Nat) (rest : Text) :
    ∃ c tail, digitsOf n ++ rest = c :: tail ∧ isDigit c = true := by
  cases hdigits : digitsOf n with
  | nil => exact absurd hdigits (digitsOf_ne_nil n)
  | cons c tail =>
      refine ⟨c, tail ++ rest, rfl, digitsOf_digits n c ?_⟩
      rw [hdigits]
      exact List.mem_cons_self

theorem decimal_read : Readable Ends decimal := by
  intro n m rest other hrest hother h
  obtain ⟨c, tail, hc, hcdigit⟩ := digitsOf_head n.natAbs rest
  obtain ⟨d, tail', hd, hddigit⟩ := digitsOf_head m.natAbs other
  have hminus (c : UInt8) (hc : isDigit c = true) : c ≠ 45 := by
    intro heq
    rw [heq] at hc
    exact absurd hc (by decide)
  rw [decimal_eq, decimal_eq, List.append_assoc, List.append_assoc] at h
  by_cases hn : n < 0
  · by_cases hm : m < 0
    · simp only [if_pos hn, if_pos hm, List.cons_append, List.nil_append, List.cons.injEq,
        true_and] at h
      obtain ⟨habs, hlater⟩ := digits_read _ _ rest other hrest hother h
      exact ⟨by omega, hlater⟩
    · rw [if_pos hn, if_neg hm, List.nil_append, hd] at h
      exact absurd (List.cons.inj h).1.symm (hminus d hddigit)
  · by_cases hm : m < 0
    · rw [if_neg hn, if_pos hm, List.nil_append, hc] at h
      exact absurd (List.cons.inj h).1 (hminus c hcdigit)
    · simp only [if_neg hn, if_neg hm, List.nil_append] at h
      obtain ⟨habs, hlater⟩ := digits_read _ _ rest other hrest hother h
      exact ⟨by omega, hlater⟩

-- The first character tells what is written.
inductive Json.Kind where
  | null | false | true | number | string | array | object
deriving DecidableEq

def Json.kind : Json → Json.Kind
  | .null => .null
  | .false => .false
  | .true => .true
  | .number _ => .number
  | .string _ => .string
  | .array _ => .array
  | .object _ => .object

def kindOfChar (c : UInt8) : Json.Kind :=
  if c = 110 then .null
  else if c = 102 then .false
  else if c = 116 then .true
  else if c = 34 then .string
  else if c = 91 then .array
  else if c = 123 then .object
  else .number

theorem kindOfChar_digit : ∀ c, isDigit c = true → kindOfChar c = .number := by
  have hall : ∀ n < 256, isDigit (UInt8.ofNat n) = true →
      kindOfChar (UInt8.ofNat n) = .number := by decide +kernel
  intro c hc
  have hchar := hall c.toNat c.toNat_lt
  rw [UInt8.ofNat_toNat] at hchar
  exact hchar hc

-- No value starts like the end of an array.
theorem layout_kind (depth : Nat) (json : Json) (rest : Text) :
    ∃ c tail, layout depth json ++ rest = c :: tail ∧ kindOfChar c = json.kind ∧ c ≠ 93 := by
  cases json with
  | number n =>
      obtain ⟨c, tail, hc, hdigit⟩ := digitsOf_head n.natAbs rest
      by_cases hneg : n < 0
      · refine ⟨45, c :: tail, ?_, rfl, by decide⟩
        simp [layout, decimal_eq, hneg, ← hc]
      · refine ⟨c, tail, ?_, kindOfChar_digit c hdigit, ?_⟩
        · simp [layout, decimal_eq, hneg, hc]
        · intro heq
          rw [heq] at hdigit
          exact absurd hdigit (by decide)
  | _ => exact ⟨_, _, rfl, rfl, by decide⟩

theorem kind_read {depth : Nat} {a b : Json} {rest other : Text}
    (h : layout depth a ++ rest = layout depth b ++ other) : a.kind = b.kind := by
  obtain ⟨c, tail, hc, hkind, -⟩ := layout_kind depth a rest
  obtain ⟨d, tail', hd, hkind', -⟩ := layout_kind depth b other
  rw [hc, hd] at h
  rw [← hkind, ← hkind', (List.cons.inj h).1]

theorem layout_not_close (depth : Nat) (json : Json) (rest tail : Text) :
    layout depth json ++ rest ≠ 93 :: tail := by
  intro h
  obtain ⟨c, tail', hc, -, hne⟩ := layout_kind depth json rest
  rw [hc] at h
  exact hne (List.cons.inj h).1

-- What follows an item: the end of the array, or a comma and the next item.
theorem items_end (depth : Nat) (items : List Json) (rest : Text) :
    Ends ((if items.isEmpty then [] else ascii ", ") ++ layoutItems depth items ++ 93 :: rest) := by
  cases items with
  | nil => exact ends_cons (by decide) rest
  | cons item items =>
      intro c tail h
      rw [← (List.cons.inj h).1]
      rfl

-- A line feed or a comma ends a member.
theorem members_end (depth : Nat) (members : Members) (rest : Text) :
    Ends (ascii (if members.isEmpty then "\n" else ",\n") ++
      (layoutMembers depth members ++ rest)) := by
  have hstop : ascii (if members.isEmpty then "\n" else ",\n") =
      if members.isEmpty then [10] else [44, 10] := by
    cases members <;> simp [ascii]
  intro c tail h
  rw [hstop] at h
  cases hempty : members.isEmpty with
  | true =>
      simp only [hempty, if_true, List.cons_append, List.cons.injEq] at h
      rw [← h.1]
      rfl
  | false =>
      simp only [hempty, Bool.false_eq_true, if_false, List.cons_append, List.cons.injEq] at h
      rw [← h.1]
      rfl

-- A member is indented by one more than the brace behind the last one.
theorem member_not_close (depth : Nat) (key : Text) (item : Json) (members : Members)
    (rest tail : Text) :
    layoutMembers (depth + 1) ((key, item) :: members) ++ tail ≠ tabs depth ++ 125 :: rest := by
  intro h
  have htabs : tabs (depth + 1) = tabs depth ++ [9] := List.replicate_succ'
  simp only [layoutMembers, htabs, List.append_assoc, List.append_cancel_left_eq,
    List.cons_append, List.nil_append] at h
  exact absurd (List.cons.inj h).1 (by decide)

mutual

-- Each text is of one value. What follows a value decides where a number ends.
theorem layout_read (depth : Nat) (a b : Json) (rest other : Text) (hrest : Ends rest)
    (hother : Ends other) (h : layout depth a ++ rest = layout depth b ++ other) :
    a = b ∧ rest = other := by
  have hkind := kind_read h
  cases a with
  | number n =>
      cases b with
      | number m =>
          obtain ⟨rfl, hlater⟩ := decimal_read n m rest other hrest hother h
          exact ⟨rfl, hlater⟩
      | _ => cases hkind
  | string text =>
      cases b with
      | string text' =>
          obtain ⟨rfl, hlater⟩ := quote_read text text' rest other h
          exact ⟨rfl, hlater⟩
      | _ => cases hkind
  | array items =>
      cases b with
      | array items' =>
          have hitems : layoutItems (depth + 1) items ++ 93 :: rest =
              layoutItems (depth + 1) items' ++ 93 :: other := by
            simpa [layout, ascii] using h
          obtain ⟨rfl, hlater⟩ := layoutItems_read (depth + 1) items items' rest other hitems
          exact ⟨rfl, hlater⟩
      | _ => cases hkind
  | object members =>
      cases b with
      | object members' =>
          have hmembers : layoutMembers (depth + 1) members ++ (tabs depth ++ 125 :: rest) =
              layoutMembers (depth + 1) members' ++ (tabs depth ++ 125 :: other) := by
            simpa [layout, ascii] using h
          obtain ⟨rfl, hlater⟩ :=
            layoutMembers_read depth members members' rest other hmembers
          exact ⟨rfl, hlater⟩
      | _ => cases hkind
  | _ =>
      cases b with
      | _ => first | exact ⟨rfl, List.append_cancel_left h⟩ | cases hkind

theorem layoutItems_read (depth : Nat) (items others : List Json) (rest other : Text)
    (h : layoutItems depth items ++ 93 :: rest = layoutItems depth others ++ 93 :: other) :
    items = others ∧ rest = other := by
  cases items with
  | nil =>
      cases others with
      | nil => exact ⟨rfl, (List.cons.inj h).2⟩
      | cons b others =>
          simp only [layoutItems, List.append_assoc] at h
          exact absurd h.symm (layout_not_close _ _ _ _)
  | cons a items =>
      cases others with
      | nil =>
          simp only [layoutItems, List.append_assoc] at h
          exact absurd h (layout_not_close _ _ _ _)
      | cons b others =>
          have hrest := items_end depth items rest
          have hother := items_end depth others other
          simp only [layoutItems, List.append_assoc] at h hrest hother
          obtain ⟨rfl, hlater⟩ := layout_read depth a b _ _ hrest hother h
          cases items with
          | nil =>
              cases others with
              | nil => exact ⟨rfl, (List.cons.inj hlater).2⟩
              | cons d others => exact absurd (List.cons.inj hlater).1 (by decide)
          | cons c items =>
              cases others with
              | nil => exact absurd (List.cons.inj hlater).1 (by decide)
              | cons d others =>
                  obtain ⟨hitems, htail⟩ := layoutItems_read depth (c :: items) (d :: others)
                    rest other (List.append_cancel_left hlater)
                  exact ⟨by rw [hitems], htail⟩

theorem layoutMembers_read (depth : Nat) (members others : Members) (rest other : Text)
    (h : layoutMembers (depth + 1) members ++ (tabs depth ++ 125 :: rest) =
      layoutMembers (depth + 1) others ++ (tabs depth ++ 125 :: other)) :
    members = others ∧ rest = other := by
  cases members with
  | nil =>
      cases others with
      | nil => exact ⟨rfl, (List.cons.inj (List.append_cancel_left h)).2⟩
      | cons member others => exact absurd h.symm (member_not_close _ _ _ _ _ _)
  | cons member members =>
      obtain ⟨key, a⟩ := member
      cases others with
      | nil => exact absurd h (member_not_close _ _ _ _ _ _)
      | cons member others =>
          obtain ⟨key', b⟩ := member
          have hrest := members_end (depth + 1) members (tabs depth ++ 125 :: rest)
          have hother := members_end (depth + 1) others (tabs depth ++ 125 :: other)
          simp only [layoutMembers, List.append_assoc, List.append_cancel_left_eq] at h
          obtain ⟨rfl, hvalue⟩ := quote_read key key' _ _ h
          obtain ⟨rfl, hlater⟩ := layout_read (depth + 1) a b _ _ hrest hother
            (List.append_cancel_left hvalue)
          cases members with
          | nil =>
              cases others with
              | nil =>
                  have htail := List.append_cancel_left (List.append_cancel_left hlater)
                  exact ⟨rfl, (List.cons.inj (List.append_cancel_left htail)).2⟩
              | cons next others => exact absurd (congrArg List.head? hlater) (by simp [ascii])
          | cons next members =>
              cases others with
              | nil => exact absurd (congrArg List.head? hlater) (by simp [ascii])
              | cons next' others =>
                  obtain ⟨hmembers, htail⟩ := layoutMembers_read depth (next :: members)
                    (next' :: others) rest other (List.append_cancel_left hlater)
                  exact ⟨by rw [hmembers], htail⟩

end

theorem layout_injective (depth : Nat) (a b : Json) (h : layout depth a = layout depth b) :
    a = b := by
  refine (layout_read depth a b [] [] ends_nil ends_nil ?_).1
  rw [h]

end Blehostd
