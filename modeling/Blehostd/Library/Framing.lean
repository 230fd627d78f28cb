import Mathlib.Data.List.Basic

-- Streams of payloads, each behind a header that announces its length.
namespace Framing

variable {α : Type*}

def frame (header : Nat → List α) (payload : List α) : List α :=
  header payload.length ++ payload

def stream (header : Nat → List α) (payloads : List (List α)) : List α :=
  (payloads.map (frame header)).flatten

variable (header : Nat → List α)

@[simp] theorem stream_nil : stream header [] = [] := rfl

theorem stream_cons (payload : List α) (rest : List (List α)) :
    stream header (payload :: rest) = header payload.length ++ (payload ++ stream header rest) := by
  simp [stream, frame]

theorem stream_append (first second : List (List α)) :
    stream header (first ++ second) = stream header first ++ stream header second := by
  simp [stream]

-- A buffer that reaches past `first` starts with it, whatever follows.
theorem split_of_append_eq {buffer unread first rest : List α}
    (h : buffer ++ unread = first ++ rest) (hl : first.length ≤ buffer.length) :
    ∃ tail, buffer = first ++ tail ∧ tail ++ unread = rest := by
  rcases List.append_eq_append_iff.mp h with ⟨tail, hf, hu⟩ | ⟨tail, hb, hr⟩
  · have ht : tail = [] := by
      apply List.length_eq_zero_iff.mp
      have := congrArg List.length hf
      simp only [List.length_append] at this
      omega
    subst tail
    exact ⟨[], by simpa using hf.symm, by simpa using hu⟩
  · exact ⟨tail, hb, hr.symm⟩

end Framing
