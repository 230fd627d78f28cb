import Blehostd.Util

namespace Blehostd

-- A field that a decoder has looked up, with the result code. For an optional
-- field the decoder goes on when there is no such member.
structure Lookup where
  key : String
  optional : Bool
  rc : Rc
deriving DecidableEq, Repr

-- The code is neither 0 nor, for an optional field, SYS_ENOENT.
def Lookup.Failed (l : Lookup) : Prop :=
  l.rc ≠ none ∧ ¬(l.optional = true ∧ l.rc = some .enoent)

def rcOf {α : Type} : Except ErrCode α → Rc
  | .ok _ => none
  | .error e => some e

def jsonInt (minval maxval : Int) (parent : Json) (name : String) : Except ErrCode Int :=
  let (val, rc) := jsonIntBounds minval maxval parent name
  checked val rc

def jsonFlag (parent : Json) (name : String) : Except ErrCode Int :=
  let (val, rc) := jsonBool parent name
  checked val rc

theorem jsonInt_ok (minval maxval : Int) (parent : Json) (name : String) (val : Int) :
    jsonInt minval maxval parent name = .ok val ↔
      parent.getObjectItem name = some (.number val) ∧ minval ≤ val ∧ val ≤ maxval := by
  unfold jsonInt jsonIntBounds
  cases hitem : parent.getObjectItem name with
  | none => simp [checked]
  | some item =>
      cases item with
      | number valueint =>
          by_cases hout : valueint < minval ∨ maxval < valueint
          · simp only [processJsonIntBounds, processJsonInt, ne_eq, not_true, if_false, hout,
              if_true, checked, reduceCtorEq, false_iff, Option.some.injEq, Json.number.injEq]
            omega
          · simp only [processJsonIntBounds, processJsonInt, ne_eq, not_true, if_false, hout,
              checked, Except.ok.injEq, Option.some.injEq, Json.number.injEq]
            omega
      | _ => simp [processJsonIntBounds, processJsonInt, checked]

-- A number is read back into the type that it comes from.
theorem ofInt_byte (n : UInt8) : UInt8.ofInt n.toNat = n := by
  have hbound : (n.toNat : Int) < 2 ^ 8 := by
    have := n.toNat_lt
    omega
  have hmod : (n.toNat : Int) % 2 ^ 8 = n.toNat := Int.emod_eq_of_lt (by omega) hbound
  rw [UInt8.ofInt, hmod, Int.toNat_natCast, UInt8.ofNat_toNat]

theorem ofInt_half (n : UInt16) : UInt16.ofInt n.toNat = n := by
  have hbound : (n.toNat : Int) < 2 ^ 16 := by
    have := n.toNat_lt
    omega
  have hmod : (n.toNat : Int) % 2 ^ 16 = n.toNat := Int.emod_eq_of_lt (by omega) hbound
  rw [UInt16.ofInt, hmod, Int.toNat_natCast, UInt16.ofNat_toNat]

theorem ofInt_word (n : UInt32) : UInt32.ofInt n.toNat = n := by
  have hbound : (n.toNat : Int) < 2 ^ 32 := by
    have := n.toNat_lt
    omega
  have hmod : (n.toNat : Int) % 2 ^ 32 = n.toNat := Int.emod_eq_of_lt (by omega) hbound
  rw [UInt32.ofInt, hmod, Int.toNat_natCast, UInt32.ofNat_toNat]

theorem toNat_ofInt_byte (val : Int) (hlow : 0 ≤ val) (hhigh : val ≤ 255) :
    ((UInt8.ofInt val).toNat : Int) = val := by
  have hsmall : val.toNat < 2 ^ 8 := by omega
  have hnat : ((UInt8.ofNat val.toNat).toNat : Int) = val := by
    rw [UInt8.toNat_ofNat_of_lt' hsmall, Int.toNat_of_nonneg hlow]
  rw [← hnat, ofInt_byte]

theorem toNat_ofInt_half (val : Int) (hlow : 0 ≤ val) (hhigh : val ≤ 65535) :
    ((UInt16.ofInt val).toNat : Int) = val := by
  have hsmall : val.toNat < 2 ^ 16 := by omega
  have hnat : ((UInt16.ofNat val.toNat).toNat : Int) = val := by
    rw [UInt16.toNat_ofNat_of_lt' hsmall, Int.toNat_of_nonneg hlow]
  rw [← hnat, ofInt_half]

section Fields

variable {ε α : Type}

def need (parent : Json) (name : String) (f : Json → String → Except ErrCode α)
    (exit : ErrCode → ε) : Decoder Lookup ε α :=
  .look ⟨name, false, rcOf (f parent name)⟩ ((f parent name).mapError exit)

def want (parent : Json) (name : String) (f : Json → String → Except ErrCode α)
    (exit : ErrCode → ε) : Decoder Lookup ε (Option α) :=
  .look ⟨name, true, rcOf (f parent name)⟩
    (match f parent name with
      | .ok a => .ok (some a)
      | .error rc => if rc = .enoent then .ok none else .error (exit rc))

-- An optional field whose value is used also when there is no such member.
def wantPair (parent : Json) (name : String) (f : Json → String → α × Rc)
    (exit : ErrCode → ε) : Decoder Lookup ε (α × Rc) :=
  let (val, rc) := f parent name
  .look ⟨name, true, rc⟩
    (match rc with
      | none => .ok (val, none)
      | some e => if e = .enoent then .ok (val, some e) else .error (exit e))

-- A field whose result code nobody looks at.
def attempt (parent : Json) (name : String) (f : Json → String → Except ErrCode α) :
    Decoder Lookup ε (Option α) :=
  .look ⟨name, false, rcOf (f parent name)⟩ (.ok (f parent name).toOption)

theorem need_ok (parent : Json) (name : String) (f : Json → String → Except ErrCode α)
    (exit : ErrCode → ε) (a : α) (h : f parent name = .ok a) :
    need parent name f exit = ⟨[⟨name, false, none⟩], .ok a⟩ := by
  simp only [need, h, rcOf, Except.mapError, Decoder.look]

theorem need_error (parent : Json) (name : String) (f : Json → String → Except ErrCode α)
    (exit : ErrCode → ε) (e : ErrCode) (h : f parent name = .error e) :
    need parent name f exit = ⟨[⟨name, false, some e⟩], .error (exit e)⟩ := by
  simp only [need, h, rcOf, Except.mapError, Decoder.look]

theorem need_result (parent : Json) (name : String) (f : Json → String → Except ErrCode α)
    (exit : ErrCode → ε) (a : α) (h : (need parent name f exit).result = .ok a) :
    f parent name = .ok a := by
  cases hf : f parent name with
  | error e =>
      rw [need_error parent name f exit e hf] at h
      cases h
  | ok b =>
      rw [need_ok parent name f exit b hf] at h
      exact congrArg Except.ok (Except.ok.inj h)

theorem need_ok_iff (parent : Json) (name : String) (f : Json → String → Except ErrCode α)
    (exit : ErrCode → ε) (a : α) :
    (need parent name f exit).result = .ok a ↔ f parent name = .ok a := by
  refine ⟨need_result parent name f exit a, ?_⟩
  intro h
  rw [need_ok parent name f exit a h]

theorem want_ok_iff (parent : Json) (name : String) (f : Json → String → Except ErrCode α)
    (exit : ErrCode → ε) (found : Option α) :
    (want parent name f exit).result = .ok found ↔
      (∃ a, f parent name = .ok a ∧ found = some a) ∨
        f parent name = .error .enoent ∧ found = none := by
  unfold want
  cases hf : f parent name with
  | ok a => simp [Decoder.look, eq_comm]
  | error e =>
      by_cases habsent : e = .enoent
      · simp [Decoder.look, habsent, eq_comm]
      · simp [Decoder.look, habsent]

theorem want_absent (parent : Json) (name : String) (f : Json → String → Except ErrCode α)
    (exit : ErrCode → ε) (h : f parent name = .error .enoent) :
    (want parent name f exit).result = .ok none := by
  simp only [want, Decoder.look, h, if_true]

variable {expected : ε → Prop}

abbrev Strict (expected : ε → Prop) (d : Decoder Lookup ε α) : Prop :=
  d.Strict Lookup.Failed expected

theorem not_failed_none (name : String) (optional : Bool) :
    ¬(⟨name, optional, none⟩ : Lookup).Failed :=
  fun h => h.1 rfl

theorem not_failed_absent (name : String) : ¬(⟨name, true, some .enoent⟩ : Lookup).Failed :=
  fun h => h.2 ⟨rfl, rfl⟩

theorem strict_need (parent : Json) (name : String) (f : Json → String → Except ErrCode α)
    (exit : ErrCode → ε) (hexit : ∀ e, expected (exit e)) :
    Strict expected (need parent name f exit) := by
  unfold need
  cases f parent name with
  | error e => exact Decoder.strict_error _ _ (hexit e)
  | ok a =>
      apply Decoder.strict_look
      · intro _ _
        exact not_failed_none name false
      · intro e h
        cases h

theorem strict_want (parent : Json) (name : String) (f : Json → String → Except ErrCode α)
    (exit : ErrCode → ε) (hexit : ∀ e, expected (exit e)) :
    Strict expected (want parent name f exit) := by
  unfold want
  cases f parent name with
  | ok a =>
      apply Decoder.strict_look
      · intro _ _
        exact not_failed_none name true
      · intro e h
        cases h
  | error e =>
      by_cases henoent : e = .enoent
      · apply Decoder.strict_look
        · intro _ _
          rw [henoent]
          exact not_failed_absent name
        · intro other h
          simp [henoent] at h
      · simp only [henoent, if_false]
        exact Decoder.strict_error _ _ (hexit e)

theorem strict_wantPair (parent : Json) (name : String) (f : Json → String → α × Rc)
    (exit : ErrCode → ε) (hexit : ∀ e, expected (exit e)) :
    Strict expected (wantPair parent name f exit) := by
  unfold wantPair
  obtain ⟨val, rc⟩ := f parent name
  cases rc with
  | none =>
      apply Decoder.strict_look
      · intro _ _
        exact not_failed_none name true
      · intro e h
        cases h
  | some e =>
      by_cases henoent : e = .enoent
      · apply Decoder.strict_look
        · intro _ _
          rw [henoent]
          exact not_failed_absent name
        · intro other h
          simp [henoent] at h
      · simp only [henoent, if_false]
        exact Decoder.strict_error _ _ (hexit e)

end Fields

end Blehostd
