import Mathlib.Data.List.Basic

-- A buffer in memory: the byte at each offset, and the offsets that have been
-- written to since it was handed over.
structure Buffer where
  cells : Nat → UInt8
  written : List Nat

namespace Buffer

def put (b : Buffer) (off : Nat) (byte : UInt8) : Buffer :=
  { cells := fun i => if i = off then byte else b.cells i
    written := b.written ++ [off] }

def putAll (b : Buffer) (off : Nat) : List UInt8 → Buffer
  | [] => b
  | byte :: rest => (b.put off byte).putAll (off + 1) rest

-- snprintf(dst + off, size, ..) for a text that it would print in full if there
-- were room. With a size it always ends the text with a NUL.
def snprintf (b : Buffer) (off size : Nat) (text : List UInt8) : Buffer :=
  if size = 0 then b else b.putAll off (text.take (size - 1) ++ [0])

-- The characters from the start of the buffer.
def Starts (b : Buffer) (text : List UInt8) : Prop :=
  ∀ i (h : i < text.length), b.cells i = text[i]

-- The C string in the buffer.
structure Holds (b : Buffer) (text : List UInt8) : Prop where
  starts : b.Starts text
  ends : b.cells text.length = 0
  noNul : ∀ c ∈ text, c ≠ 0

theorem putAll_cells (b : Buffer) (off : Nat) (bytes : List UInt8) (i : Nat) :
    (b.putAll off bytes).cells i =
      if h : off ≤ i ∧ i - off < bytes.length then bytes[i - off] else b.cells i := by
  induction bytes generalizing b off with
  | nil => simp [putAll]
  | cons byte rest ih =>
      rw [putAll, ih]
      by_cases hlater : off + 1 ≤ i ∧ i - (off + 1) < rest.length
      · have hin : off ≤ i ∧ i - off < (byte :: rest).length := by
          rw [List.length_cons]
          omega
        have hindex : i - off = i - (off + 1) + 1 := by omega
        rw [dif_pos hlater, dif_pos hin]
        simp only [hindex, List.getElem_cons_succ]
      · rw [dif_neg hlater]
        by_cases hfirst : i = off
        · subst hfirst
          simp [put]
        · have hout : ¬(off ≤ i ∧ i - off < (byte :: rest).length) := by
            rw [List.length_cons]
            omega
          rw [dif_neg hout]
          simp only [put, hfirst, if_false]

theorem putAll_written (b : Buffer) (off : Nat) (bytes : List UInt8) :
    (b.putAll off bytes).written = b.written ++ List.range' off bytes.length := by
  induction bytes generalizing b off with
  | nil => simp [putAll]
  | cons byte rest ih => simp [putAll, ih, put, List.range'_succ]

theorem Starts.put {b : Buffer} {text : List UInt8} (h : b.Starts text) (byte : UInt8) :
    (b.put text.length byte).Starts (text ++ [byte]) := by
  intro i hi
  rw [List.length_append, List.length_singleton] at hi
  by_cases hlast : i = text.length
  · subst hlast
    simp [Buffer.put]
  · have hold : i < text.length := by omega
    rw [List.getElem_append_left hold, ← h i hold]
    simp only [Buffer.put, hlast, if_false]

-- Behind what the buffer starts with, as much of the text as has room.
theorem Starts.snprintf {b : Buffer} {text : List UInt8} (h : b.Starts text) (size : Nat)
    (hsize : 0 < size) (piece : List UInt8) :
    (b.snprintf text.length size piece).Starts (text ++ piece.take (size - 1)) ∧
      (b.snprintf text.length size piece).cells (text ++ piece.take (size - 1)).length = 0 := by
  have hne : size ≠ 0 := by omega
  unfold Buffer.snprintf
  rw [if_neg hne]
  constructor
  · intro i hi
    rw [List.length_append] at hi
    rw [putAll_cells]
    by_cases hold : i < text.length
    · have hout : ¬(text.length ≤ i ∧
          i - text.length < (piece.take (size - 1) ++ [0]).length) := by omega
      rw [dif_neg hout, List.getElem_append_left hold, h i hold]
    · have hpiece : i - text.length < (piece.take (size - 1)).length := by omega
      have hin : text.length ≤ i ∧ i - text.length < (piece.take (size - 1) ++ [0]).length := by
        rw [List.length_append]
        omega
      rw [dif_pos hin, List.getElem_append_left hpiece,
        List.getElem_append_right (Nat.le_of_not_lt hold)]
  · rw [putAll_cells, List.length_append]
    have hin : text.length ≤ text.length + (piece.take (size - 1)).length ∧
        text.length + (piece.take (size - 1)).length - text.length <
          (piece.take (size - 1) ++ [0]).length := by
      rw [List.length_append, List.length_singleton]
      omega
    rw [dif_pos hin]
    simp

theorem Holds.snprintf {b : Buffer} {text : List UInt8} (h : b.Holds text) (size : Nat)
    (hsize : 0 < size) (piece : List UInt8) (hpiece : ∀ c ∈ piece, c ≠ 0) :
    (b.snprintf text.length size piece).Holds (text ++ piece.take (size - 1)) := by
  obtain ⟨hstarts, hends⟩ := h.starts.snprintf size hsize piece
  refine ⟨hstarts, hends, ?_⟩
  intro c hc
  rcases List.mem_append.mp hc with hold | hnew
  · exact h.noNul c hold
  · exact hpiece c (List.mem_of_mem_take hnew)

-- A buffer holds one string.
theorem Holds.unique {b : Buffer} {text text' : List UInt8} (h : b.Holds text)
    (h' : b.Holds text') : text = text' := by
  have hlength : text.length = text'.length := by
    rcases Nat.lt_trichotomy text.length text'.length with hlt | heq | hgt
    · have hnul := h'.starts text.length hlt
      rw [h.ends] at hnul
      exact absurd hnul.symm (h'.noNul _ (List.getElem_mem hlt))
    · exact heq
    · have hnul := h.starts text'.length hgt
      rw [h'.ends] at hnul
      exact absurd hnul.symm (h.noNul _ (List.getElem_mem hgt))
  refine List.ext_getElem hlength ?_
  intro i hi hi'
  rw [← h.starts i hi, h'.starts i hi']

theorem holds_nil (b : Buffer) : b.Holds [] ↔ b.cells 0 = 0 := by
  constructor
  · intro h
    exact h.ends
  · intro h
    refine ⟨?_, h, ?_⟩
    · intro i hi
      exact absurd hi (Nat.not_lt_zero i)
    · intro c hc
      exact absurd hc List.not_mem_nil

theorem snprintf_written (b : Buffer) (off size : Nat) (text : List UInt8) :
    ∀ i ∈ (b.snprintf off size text).written, i ∈ b.written ∨ off ≤ i ∧ i < off + size := by
  intro i hi
  unfold snprintf at hi
  split_ifs at hi with hsize
  · exact Or.inl hi
  · rw [putAll_written, List.mem_append, List.mem_range'_1, List.length_append, List.length_take,
      List.length_singleton] at hi
    rcases hi with hold | hnew
    · exact Or.inl hold
    · right
      omega

end Buffer
