import Mathlib.Data.Nat.Digits.Lemmas
import Blehostd.Json.Layout

namespace Blehostd.Json

theorem escape_length_le (c : UInt8) : (escape c).length ≤ 6 := by
  unfold escape
  split_ifs <;> simp [ascii]

theorem quote_length_le (text : Text) : (quote text).length ≤ 6 * text.length + 2 := by
  have hescape : (text.flatMap escape).length ≤ 6 * text.length := by
    induction text with
    | nil => simp
    | cons c rest ih =>
        have hc := escape_length_le c
        simp only [List.flatMap_cons, List.length_append, List.length_cons]
        omega
  simp only [quote, List.cons_append, List.length_cons, List.length_append, List.length_nil]
  omega

theorem digits_length_le (n k : Nat) (hn : n < 10 ^ k) : (Nat.digits 10 n).length ≤ k :=
  (Nat.digits_length_le_iff (by decide) n).mpr hn

-- Every int and every unsigned int.
theorem decimal_length_le (n : Int) (hlower : -2 ^ 31 ≤ n) (hupper : n < 2 ^ 32) :
    (decimal n).length ≤ 11 := by
  have hdigits := digits_length_le n.natAbs 10 (by omega)
  unfold decimal
  dsimp only
  split_ifs <;> simp only [List.length_cons, List.length_nil, List.length_map, List.length_reverse]
  all_goals omega

theorem decimal_length_pos (n : Int) : 0 < (decimal n).length := by
  by_cases hzero : n = 0
  · subst hzero
    decide
  · have hdigits : Nat.digits 10 n.natAbs ≠ [] := by
      intro hnil
      exact hzero (Int.natAbs_eq_zero.mp (Nat.digits_eq_nil_iff_eq_zero.mp hnil))
    by_cases hneg : n < 0 <;> simp [decimal, hzero, hneg]

def memberSize (depth : Nat) (member : Text × Json) : Nat :=
  depth + 4 + (quote member.1).length + (layout depth member.2).length

def membersSize (depth : Nat) (members : Members) : Nat :=
  (members.map (memberSize depth)).sum

def itemsSize (sizes : List Nat) : Nat :=
  if sizes = [] then 2 else (sizes.map (· + 2)).sum

theorem itemsSize_ge (sizes : List Nat) (size : Nat) (h : ∀ other ∈ sizes, size ≤ other) :
    (size + 2) * sizes.length ≤ itemsSize sizes := by
  by_cases hnil : sizes = []
  · simp [hnil]
  · rw [itemsSize, if_neg hnil]
    clear hnil
    induction sizes with
    | nil => exact Nat.le_refl _
    | cons other rest ih =>
        have hother := h other (by simp)
        have hrest := ih fun a ha => h a (by simp [ha])
        simp only [List.length_cons, List.map_cons, List.sum_cons, Nat.mul_add, Nat.mul_one]
        omega

theorem membersSize_append (depth : Nat) (first second : Members) :
    membersSize depth (first ++ second) = membersSize depth first + membersSize depth second := by
  simp only [membersSize, List.map_append, List.sum_append]

theorem membersSize_item (depth : Nat) (name : String) (item : Json) :
    membersSize depth (addItem name item) =
      depth + 4 + (quote (ascii name)).length + (layout depth item).length :=
  Nat.add_zero _

theorem layoutMembers_length (depth : Nat) (members : Members) (h : members ≠ []) :
    (layoutMembers depth members).length + 1 = membersSize depth members := by
  induction members with
  | nil => exact absurd rfl h
  | cons member rest ih =>
      obtain ⟨key, item⟩ := member
      by_cases hrest : rest = []
      · subst hrest
        simp [layoutMembers, membersSize, memberSize, tabs, ascii]
        omega
      · have hlast := ih hrest
        simp [layoutMembers, hrest, membersSize, memberSize, tabs, ascii] at hlast ⊢
        omega

theorem layout_object_length (depth : Nat) (members : Members) (h : members ≠ []) :
    (layout depth (.object members)).length = depth + 2 + membersSize (depth + 1) members := by
  have hmembers := layoutMembers_length (depth + 1) members h
  simp [layout, tabs, ascii]
  omega

theorem layoutItems_length (depth : Nat) (items : List Json) (h : items ≠ []) :
    (layoutItems depth items).length + 2 =
      itemsSize (items.map fun item => (layout depth item).length) := by
  induction items with
  | nil => exact absurd rfl h
  | cons item rest ih =>
      by_cases hrest : rest = []
      · subst hrest
        simp [layoutItems, itemsSize]
      · have hlast := ih hrest
        simp [layoutItems, itemsSize, hrest, ascii] at hlast ⊢
        omega

theorem layout_array_length (depth : Nat) (items : List Json) :
    (layout depth (.array items)).length =
      itemsSize (items.map fun item => (layout (depth + 1) item).length) := by
  by_cases h : items = []
  · subst h
    rfl
  · have hitems := layoutItems_length (depth + 1) items h
    simp [layout, ascii]
    omega

-- What is written is a C string.
theorem escape_no_nul (c : UInt8) : 0 ∉ escape c := by
  by_cases hlow : c < 32
  · have hall : ∀ n < 32, 0 ∉ escape (UInt8.ofNat n) := by decide
    have := hall c.toNat (UInt8.lt_iff_toNat_lt.mp hlow)
    rwa [UInt8.ofNat_toNat] at this
  · have hzero : 0 ≠ c := by
      rintro rfl
      exact hlow (by decide)
    have hctl : c ≠ 8 ∧ c ≠ 9 ∧ c ≠ 10 ∧ c ≠ 12 ∧ c ≠ 13 := by
      refine ⟨?_, ?_, ?_, ?_, ?_⟩ <;> rintro rfl <;> exact hlow (by decide)
    by_cases hquote : c = 34 ∨ c = 92 <;> simp [escape, hquote, hctl, hlow, hzero]

theorem quote_no_nul (text : Text) : 0 ∉ quote text := by
  simp [quote, escape_no_nul]

theorem decimal_no_nul (n : Int) : 0 ∉ decimal n := by
  have hdigits : 0 ∉ (Nat.digits 10 n.natAbs).reverse.map fun d => UInt8.ofNat (48 + d) := by
    intro hmem
    obtain ⟨d, hd, hzero⟩ := List.mem_map.mp hmem
    have hlt : d < 10 := Nat.digits_lt_base (by decide) (List.mem_reverse.mp hd)
    have hmod := congrArg UInt8.toNat hzero
    rw [UInt8.toNat_ofNat'] at hmod
    have : (0 : UInt8).toNat = 0 := rfl
    omega
  by_cases hzero : n = 0
  · subst hzero
    decide
  · by_cases hneg : n < 0
    · simp only [decimal, hzero, hneg, if_true, if_false, List.mem_cons, not_or]
      exact ⟨by decide, hdigits⟩
    · simp only [decimal, hzero, hneg, if_false]
      exact hdigits

mutual

theorem layout_no_nul (depth : Nat) : (value : Json) → 0 ∉ layout depth value
  | .null => (by decide : 0 ∉ ascii "null")
  | .false => (by decide : 0 ∉ ascii "false")
  | .true => (by decide : 0 ∉ ascii "true")
  | .number n => decimal_no_nul n
  | .string text => quote_no_nul text
  | .array items => by
      have hitems := layoutItems_no_nul (depth + 1) items
      simp [layout, hitems, ascii]
  | .object members => by
      have hmembers := layoutMembers_no_nul (depth + 1) members
      simp [layout, hmembers, ascii, tabs]

theorem layoutItems_no_nul (depth : Nat) : (items : List Json) → 0 ∉ layoutItems depth items
  | [] => by simp [layoutItems]
  | item :: rest => by
      have hitem := layout_no_nul depth item
      have hrest := layoutItems_no_nul depth rest
      by_cases hlast : rest = [] <;> simp [layoutItems, hitem, hrest, hlast, ascii]

theorem layoutMembers_no_nul (depth : Nat) :
    (members : List (Text × Json)) → 0 ∉ layoutMembers depth members
  | [] => by simp [layoutMembers]
  | (key, item) :: rest => by
      have hkey := quote_no_nul key
      have hitem := layout_no_nul depth item
      have hrest := layoutMembers_no_nul depth rest
      by_cases hlast : rest = [] <;>
        simp [layoutMembers, hkey, hitem, hrest, hlast, ascii, tabs]

end

end Blehostd.Json
