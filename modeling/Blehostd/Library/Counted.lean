import Mathlib.Data.Vector.Basic

-- An array of a fixed size, with the number of its elements that are in use.
structure Counted (α : Type) (n : Nat) where
  elems : Vector α n
  count : UInt8

def Counted.clear {α : Type} {n : Nat} (a : α) : Counted α n :=
  ⟨Vector.replicate n a, 0⟩

def Counted.list {α : Type} {n : Nat} (c : Counted α n) : List α :=
  c.elems.toList.take c.count.toNat

-- A pointer with the number of elements that are in use behind it. NULL is none.
structure CountedPtr (α : Type) where
  ptr : Option (List α)
  count : UInt8

namespace CountedPtr

variable {α : Type}

def null : CountedPtr α := ⟨none, 0⟩

def read (p : CountedPtr α) (i : Nat) : Option α :=
  p.ptr.bind fun cells => cells[i]?

def list (p : CountedPtr α) : List α :=
  (p.ptr.getD []).take p.count.toNat

-- There are as many elements behind the pointer.
def Valid (p : CountedPtr α) : Prop :=
  p.count.toNat ≤ (p.ptr.getD []).length

-- Rows of w elements that follow one another. The number counts the rows.
def row (w : Nat) (p : CountedPtr α) (i : Nat) : Option (Vector α w) :=
  p.ptr.bind fun cells =>
    if h : i * w + w ≤ cells.length then
      some ⟨((cells.drop (i * w)).take w).toArray, by simp; omega⟩
    else none

def rows (w : Nat) (p : CountedPtr α) : List (Vector α w) :=
  (List.range p.count.toNat).filterMap (p.row w)

def ValidRows (w : Nat) (p : CountedPtr α) : Prop :=
  p.count.toNat * w ≤ (p.ptr.getD []).length

theorem list_length (p : CountedPtr α) (hvalid : p.Valid) :
    p.list.length = p.count.toNat := by
  rw [list, List.length_take, Nat.min_eq_left hvalid]

theorem read_list (p : CountedPtr α) (j : Nat) (hj : j < p.list.length) :
    p.read j = some p.list[j] := by
  cases hptr : p.ptr with
  | none => simp [list, hptr] at hj
  | some cells =>
      have hbound : j < cells.length := by
        simp only [list, hptr, Option.getD_some, List.length_take] at hj
        omega
      simp [read, list, hptr, hbound]

theorem row_some (w : Nat) (p : CountedPtr α) (hvalid : p.ValidRows w) (hw : 0 < w) :
    ∀ i < p.count.toNat, ∃ v, p.row w i = some v := by
  intro i hi
  have hend : i * w + w ≤ (p.ptr.getD []).length := by
    have hrows := Nat.mul_le_mul_right w (Nat.succ_le_of_lt hi)
    rw [Nat.succ_mul] at hrows
    exact hrows.trans hvalid
  cases hptr : p.ptr with
  | none =>
      rw [hptr, Option.getD_none, List.length_nil] at hend
      omega
  | some cells =>
      rw [hptr, Option.getD_some] at hend
      simp only [row, hptr, Option.bind_some, dif_pos hend]
      exact ⟨_, rfl⟩

end CountedPtr

namespace Counted

variable {α : Type} {n : Nat}

-- dst[i] = f(i) for count indices from i on. The result is none when there is an access
-- outside of an array.
def fill (f : Nat → Option α) : Nat → Nat → Vector α n → Option (Vector α n)
  | 0, _, dst => some dst
  | count + 1, i, dst => do
      let a ← f i
      if h : i < n then fill f count (i + 1) (dst.set i a) else none

def copyList (src : CountedPtr α) (dst : Counted α n) : Option (Counted α n) := do
  let elems ← fill src.read src.count.toNat 0 dst.elems
  some ⟨elems, src.count⟩

-- Nothing is copied from a NULL pointer.
def copyData (src : CountedPtr α) (dst : Counted α n) : Option (Counted α n) :=
  if src.ptr.isSome then copyList src dst else some dst

def copyRows {w : Nat} (src : CountedPtr α) (dst : Counted (Vector α w) n) :
    Option (Counted (Vector α w) n) := do
  let elems ← fill (src.row w) src.count.toNat 0 dst.elems
  some ⟨elems, src.count⟩

-- A pointer to the array itself, or to a copy of what is in use.
def pointTo (c : Counted α n) : CountedPtr α :=
  if 0 < c.count then ⟨some c.elems.toList, c.count⟩ else .null

def pointToRows {w : Nat} (c : Counted (Vector α w) n) : CountedPtr α :=
  if 0 < c.count then ⟨some (c.elems.toList.map Vector.toList).flatten, c.count⟩ else .null

def pointToCopy {m : Nat} (c : Counted α n) (buf : Vector α m) : Option (CountedPtr α) :=
  if 0 < c.count then do
    let buf ← fill (fun i => c.elems[i]?) c.count.toNat 0 buf
    some ⟨some buf.toList, c.count⟩
  else some .null

theorem fill_toList (f : Nat → Option α) (as : List α) (i : Nat) (dst : Vector α n)
    (hread : ∀ j (h : j < as.length), f (i + j) = some as[j]) (hroom : i + as.length ≤ n) :
    ∃ filled, fill f as.length i dst = some filled ∧
      filled.toList = dst.toList.take i ++ as ++ dst.toList.drop (i + as.length) := by
  induction as generalizing i dst with
  | nil => exact ⟨dst, rfl, by simp⟩
  | cons a rest ih =>
      rw [List.length_cons] at hroom
      have hi : i < n := by omega
      have hfirst : f i = some a := hread 0 (Nat.zero_lt_succ _)
      have hrest : ∀ j (h : j < rest.length), f (i + 1 + j) = some rest[j] := by
        intro j hj
        have hnext := hread (j + 1) (Nat.succ_lt_succ hj)
        have hindex : i + (j + 1) = i + 1 + j := by omega
        rwa [hindex] at hnext
      obtain ⟨filled, hfill, hlist⟩ := ih (i + 1) (dst.set i a) hrest (by omega)
      refine ⟨filled, ?_, ?_⟩
      · simp only [List.length_cons, fill, hfirst, bind, Option.bind, hi, dif_pos]
        exact hfill
      · have hset : (dst.set i a).toList = dst.toList.set i a := by
          simp only [Vector.toList, Vector.toArray_set, Array.toList_set]
        have hbound : i < (dst.toList.set i a).length := by simpa using hi
        have hend : i + (rest.length + 1) = i + 1 + rest.length := by omega
        rw [hlist, hset, List.take_succ_eq_append_getElem hbound, List.getElem_set_self,
          List.take_set_of_le (Nat.le_refl i), List.drop_set_of_lt (by omega), List.length_cons,
          hend]
        simp

theorem fill_list (f : Nat → Option α) (as : List α) (dst : Vector α n)
    (hread : ∀ j (h : j < as.length), f j = some as[j]) (hroom : as.length ≤ n) :
    ∃ filled, fill f as.length 0 dst = some filled ∧ filled.toList.take as.length = as := by
  have hfrom : ∀ j (h : j < as.length), f (0 + j) = some as[j] := by
    intro j hj
    rw [Nat.zero_add]
    exact hread j hj
  obtain ⟨filled, hfill, hlist⟩ := fill_toList f as 0 dst hfrom (by omega)
  refine ⟨filled, hfill, ?_⟩
  rw [hlist, List.take_zero, List.nil_append, List.take_left]

theorem copyList_list (src : CountedPtr α) (dst : Counted α n) (hvalid : src.Valid)
    (hroom : src.count.toNat ≤ n) :
    ∃ c, copyList src dst = some c ∧ c.list = src.list ∧ c.count = src.count := by
  have hlength := src.list_length hvalid
  obtain ⟨elems, hfill, hlist⟩ := fill_list src.read src.list dst.elems src.read_list
    (by omega)
  rw [hlength] at hfill hlist
  exact ⟨⟨elems, src.count⟩, by simp only [copyList, hfill, bind, Option.bind], hlist, rfl⟩

theorem copyData_list (src : CountedPtr α) (dst : Counted α n) (hvalid : src.Valid)
    (hroom : src.count.toNat ≤ n) (hdst : dst.count = 0) :
    ∃ c, copyData src dst = some c ∧ c.list = src.list ∧ c.count = src.count := by
  cases hptr : src.ptr with
  | some cells =>
      obtain ⟨c, hcopy, hlist, hcount⟩ := copyList_list src dst hvalid hroom
      exact ⟨c, by simp [copyData, hptr, hcopy], hlist, hcount⟩
  | none =>
      have hzero : src.count = 0 := by
        simp only [CountedPtr.Valid, hptr, Option.getD_none, List.length_nil, Nat.le_zero] at hvalid
        exact UInt8.toNat_inj.mp hvalid
      refine ⟨dst, by simp [copyData, hptr], ?_, by rw [hdst, hzero]⟩
      simp [Counted.list, CountedPtr.list, hdst, hzero]

-- The results of a function that has one for every index.
theorem filterMap_range {β : Type} (f : Nat → Option β) (k : Nat)
    (h : ∀ i < k, ∃ b, f i = some b) :
    ((List.range k).filterMap f).length = k ∧
      ∀ i (hi : i < ((List.range k).filterMap f).length),
        f i = some ((List.range k).filterMap f)[i] := by
  induction k with
  | zero => simp
  | succ k ih =>
      obtain ⟨hlength, hget⟩ := ih fun i hi => h i (by omega)
      obtain ⟨b, hb⟩ := h k (Nat.lt_succ_self k)
      have hsnoc : (List.range (k + 1)).filterMap f = (List.range k).filterMap f ++ [b] := by
        simp [List.range_succ, hb]
      simp only [hsnoc]
      refine ⟨by rw [List.length_append, hlength]; rfl, ?_⟩
      intro i hi
      rw [List.length_append, hlength, List.length_singleton] at hi
      by_cases hlast : i = k
      · subst hlast
        rw [List.getElem_append_right (by omega)]
        simp [hb]
      · rw [List.getElem_append_left (by omega)]
        exact hget i (by omega)

theorem copyRows_list {w : Nat} (hw : 0 < w) (src : CountedPtr α) (dst : Counted (Vector α w) n)
    (hvalid : src.ValidRows w) (hroom : src.count.toNat ≤ n) :
    ∃ c, copyRows src dst = some c ∧ c.list = src.rows w ∧ c.count = src.count := by
  obtain ⟨hlength, hrow⟩ := filterMap_range (src.row w) src.count.toNat (src.row_some w hvalid hw)
  have hrows : src.rows w = (List.range src.count.toNat).filterMap (src.row w) := rfl
  rw [← hrows] at hlength hrow
  obtain ⟨elems, hfill, hlist⟩ := fill_list (src.row w) (src.rows w) dst.elems hrow (by omega)
  rw [hlength] at hfill hlist
  exact ⟨⟨elems, src.count⟩, by simp only [copyRows, hfill, bind, Option.bind], hlist, rfl⟩

theorem count_zero (count : UInt8) (h : ¬0 < count) : count = 0 := by
  rw [UInt8.lt_iff_toNat_lt, UInt8.toNat_zero] at h
  rw [← UInt8.toNat_inj, UInt8.toNat_zero]
  omega

theorem pointTo_count (c : Counted α n) : (pointTo c).count = c.count := by
  unfold pointTo
  split_ifs with hsome
  · rfl
  · exact (count_zero c.count hsome).symm

theorem pointToRows_count {w : Nat} (c : Counted (Vector α w) n) :
    (pointToRows c).count = c.count := by
  unfold pointToRows
  split_ifs with hsome
  · rfl
  · exact (count_zero c.count hsome).symm

theorem pointTo_list (c : Counted α n) : (pointTo c).list = c.list := by
  unfold pointTo
  split_ifs with hsome
  · rfl
  · simp [CountedPtr.null, CountedPtr.list, Counted.list, count_zero c.count hsome]

theorem list_length (c : Counted α n) (hroom : c.count.toNat ≤ n) :
    c.list.length = c.count.toNat := by
  rw [Counted.list, List.length_take, Vector.length_toList, Nat.min_eq_left hroom]

theorem pointToCopy_list {m : Nat} (c : Counted α n) (buf : Vector α m)
    (hroom : c.count.toNat ≤ n) (hbuf : c.count.toNat ≤ m) :
    ∃ p, pointToCopy c buf = some p ∧ p.list = c.list ∧ p.count = c.count := by
  unfold pointToCopy
  split_ifs with hsome
  · have hlength := c.list_length hroom
    have hread : ∀ i (h : i < c.list.length), c.elems[i]? = some c.list[i] := by
      intro i hi
      rw [hlength] at hi
      have hbound : i < n := by omega
      simp [Counted.list, hbound]
    obtain ⟨elems, hfill, hlist⟩ := fill_list (fun i => c.elems[i]?) c.list buf hread (by omega)
    rw [hlength] at hfill hlist
    exact ⟨⟨some elems.toList, c.count⟩, by simp only [hfill, bind, Option.bind], hlist, rfl⟩
  · have hzero := count_zero c.count hsome
    exact ⟨.null, rfl, by simp [CountedPtr.null, CountedPtr.list, Counted.list, hzero], hzero.symm⟩

theorem flatten_row {w : Nat} (rows : List (Vector α w)) (i : Nat) (hi : i < rows.length) :
    ((rows.map Vector.toList).flatten.drop (i * w)).take w = rows[i].toList := by
  induction rows generalizing i with
  | nil => simp at hi
  | cons row rest ih =>
      have hlength : row.toList.length = w := Vector.length_toList
      cases i with
      | zero => simp [hlength]
      | succ i =>
          rw [List.length_cons] at hi
          have hskip : (i + 1) * w = row.toList.length + i * w := by
            rw [hlength, Nat.succ_mul, Nat.add_comm]
          rw [List.map_cons, List.flatten_cons, hskip, List.drop_append,
            List.drop_of_length_le (Nat.le_add_right _ _), List.nil_append,
            Nat.add_sub_cancel_left, ih i (by omega)]
          rfl

theorem flatten_length {w : Nat} (rows : List (Vector α w)) :
    ((rows.map Vector.toList).flatten).length = rows.length * w := by
  induction rows with
  | nil => simp
  | cons row rest ih =>
      rw [List.map_cons, List.flatten_cons, List.length_append, ih, Vector.length_toList,
        List.length_cons, Nat.succ_mul, Nat.add_comm]

theorem pointToRows_rows {w : Nat} (hw : 0 < w) (c : Counted (Vector α w) n)
    (hroom : c.count.toNat ≤ n) : (pointToRows c).rows w = c.list := by
  unfold pointToRows
  split_ifs with hsome
  · obtain ⟨p, hp⟩ : ∃ p : CountedPtr α,
        p = ⟨some (c.elems.toList.map Vector.toList).flatten, c.count⟩ := ⟨_, rfl⟩
    have hcells := flatten_length c.elems.toList
    rw [Vector.length_toList] at hcells
    have hvalid : p.ValidRows w := by
      rw [hp, CountedPtr.ValidRows, Option.getD_some, hcells]
      exact Nat.mul_le_mul_right w hroom
    have hrow : ∀ i (hi : i < c.list.length), p.row w i = some c.list[i] := by
      intro i hi
      have hlength := c.list_length hroom
      have hbound : i < c.elems.toList.length := by
        rw [Vector.length_toList]
        omega
      have hend : i * w + w ≤ (c.elems.toList.map Vector.toList).flatten.length := by
        have hrows := Nat.mul_le_mul_right w (Nat.succ_le_of_lt hbound)
        rw [Nat.succ_mul, Vector.length_toList] at hrows
        rwa [hcells]
      have hget : c.list[i] = c.elems.toList[i] := by simp only [Counted.list, List.getElem_take]
      rw [hp, CountedPtr.row, Option.bind_some, dif_pos hend, hget]
      congr 1
      apply Vector.toList_inj.mp
      exact flatten_row c.elems.toList i hbound
    have hcount : p.count = c.count := by rw [hp]
    obtain ⟨hlength, hrows⟩ := filterMap_range (p.row w) p.count.toNat (p.row_some w hvalid hw)
    rw [← hp]
    apply List.ext_getElem
    · rw [CountedPtr.rows, hlength, hcount, c.list_length hroom]
    · intro i hi hi'
      have hsame := (hrows i hi).symm.trans (hrow i hi')
      exact Option.some.inj hsame
  · simp [CountedPtr.null, CountedPtr.rows, Counted.list, count_zero c.count hsome]

end Counted
