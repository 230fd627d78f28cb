import Mathlib.Data.List.Basic

-- Words that can be read from the front of a text: which word it was, and where it ends.
namespace Code

variable {α β : Type*}

-- What follows a word is a text that `ends` admits.
def Readable (ends : List β → Prop) (f : α → List β) : Prop :=
  ∀ a b rest other, ends rest → ends other → f a ++ rest = f b ++ other → a = b ∧ rest = other

-- A word that is not the start of another one is known whatever follows.
theorem readable_of_prefixFree {f : α → List β} (h : ∀ a b, f a <+: f b → a = b) :
    Readable (fun _ => True) f := by
  intro a b rest other _ _ heq
  have hsame : a = b := by
    rcases List.append_eq_append_iff.mp heq with ⟨tail, hb, -⟩ | ⟨tail, ha, -⟩
    · exact h a b ⟨tail, hb.symm⟩
    · exact (h b a ⟨tail, ha.symm⟩).symm
  subst hsame
  exact ⟨rfl, List.append_cancel_left heq⟩

-- A list of words before a stop that no word starts with.
theorem Readable.delimited {f : α → List β} (h : Readable (fun _ => True) f) (stop : β)
    (hstop : ∀ a, ∃ c word, f a = c :: word ∧ c ≠ stop) :
    Readable (fun _ => True) fun words : List α => words.flatMap f ++ [stop] := by
  intro words
  induction words with
  | nil =>
      intro others rest other _ _ heq
      cases others with
      | nil => exact ⟨rfl, by simpa using heq⟩
      | cons b others =>
          obtain ⟨c, word, hword, hne⟩ := hstop b
          simp only [List.flatMap_nil, List.nil_append, List.flatMap_cons, hword, List.cons_append,
            List.cons.injEq] at heq
          exact absurd heq.1.symm hne
  | cons a words ih =>
      intro others rest other hrest hother heq
      cases others with
      | nil =>
          obtain ⟨c, word, hword, hne⟩ := hstop a
          simp only [List.flatMap_nil, List.nil_append, List.flatMap_cons, hword, List.cons_append,
            List.cons.injEq] at heq
          exact absurd heq.1 hne
      | cons b others =>
          simp only [List.flatMap_cons, List.append_assoc] at heq
          obtain ⟨rfl, hlater⟩ := h a b _ _ trivial trivial heq
          have hwords := ih others rest other hrest hother
            (by simpa only [List.append_assoc] using hlater)
          exact ⟨by rw [hwords.1], hwords.2⟩

end Code
