import Mathlib.Data.List.Forall2

-- A decoder keeps the lookups that it has made, whether it ends with a value or
-- leaves through an exit.
structure Decoder (κ ε α : Type) where
  lookups : List κ
  result : Except ε α

namespace Decoder

variable {κ ε ε' α β γ : Type}

instance : Monad (Decoder κ ε) where
  pure a := ⟨[], .ok a⟩
  bind d f :=
    match d.result with
    | .error e => ⟨d.lookups, .error e⟩
    | .ok a => ⟨d.lookups ++ (f a).lookups, (f a).result⟩

def look (entry : κ) (result : Except ε α) : Decoder κ ε α := ⟨[entry], result⟩

def leave (e : ε) : Decoder κ ε α := ⟨[], .error e⟩

def mapExit (f : ε → ε') (d : Decoder κ ε α) : Decoder κ ε' α := ⟨d.lookups, d.result.mapError f⟩

-- The items in order, each with its number.
def each (f : Nat → γ → Decoder κ ε α) : Nat → List γ → Decoder κ ε (List α)
  | _, [] => pure []
  | i, item :: rest => do
      let first ← f i item
      let others ← each f (i + 1) rest
      pure (first :: others)

-- A failed lookup is never passed over, and the exits are the expected ones.
structure Strict (failed : κ → Prop) (expected : ε → Prop) (d : Decoder κ ε α) : Prop where
  passed : ∀ a, d.result = .ok a → ∀ entry ∈ d.lookups, ¬failed entry
  left : ∀ e, d.result = .error e → expected e

section Rules

variable {failed : κ → Prop} {expected : ε → Prop}

theorem strict_error (lookups : List κ) (e : ε) (he : expected e) :
    Strict failed expected (⟨lookups, .error e⟩ : Decoder κ ε α) := by
  constructor
  · intro a h
    cases h
  · intro other h
    cases h
    exact he

theorem strict_pure (a : α) : Strict failed expected (pure a : Decoder κ ε α) := by
  constructor
  · intro _ _ entry hmem
    exact absurd hmem List.not_mem_nil
  · intro e h
    cases h

theorem strict_leave (e : ε) (he : expected e) :
    Strict failed expected (leave e : Decoder κ ε α) :=
  strict_error [] e he

theorem strict_look (entry : κ) (result : Except ε α) (hok : ∀ a, result = .ok a → ¬failed entry)
    (herror : ∀ e, result = .error e → expected e) :
    Strict failed expected (look entry result) := by
  refine ⟨?_, herror⟩
  intro a h other hmem
  obtain rfl : other = entry := List.mem_singleton.mp hmem
  exact hok a h

theorem bind_error (d : Decoder κ ε α) (f : α → Decoder κ ε β) (e : ε)
    (h : d.result = .error e) : d >>= f = ⟨d.lookups, .error e⟩ := by
  simp only [bind, h]

theorem bind_ok (d : Decoder κ ε α) (f : α → Decoder κ ε β) (a : α) (h : d.result = .ok a) :
    d >>= f = ⟨d.lookups ++ (f a).lookups, (f a).result⟩ := by
  simp only [bind, h]

theorem pure_bind (a : α) (f : α → Decoder κ ε β) : (pure a : Decoder κ ε α) >>= f = f a :=
  rfl

theorem bind_assoc (d : Decoder κ ε α) (f : α → Decoder κ ε β) (g : β → Decoder κ ε γ) :
    d >>= f >>= g = d >>= fun a => f a >>= g := by
  cases hd : d.result with
  | error e => rw [bind_error d f e hd, bind_error d _ e hd, bind_error _ g e rfl]
  | ok a =>
      rw [bind_ok d f a hd, bind_ok d _ a hd]
      cases hf : (f a).result with
      | error e => rw [bind_error (f a) g e hf, bind_error _ g e rfl]
      | ok b => rw [bind_ok (f a) g b hf, bind_ok _ g b rfl, List.append_assoc]

theorem strict_bind_of_ok (d : Decoder κ ε α) (f : α → Decoder κ ε β)
    (hd : Strict failed expected d)
    (hf : ∀ a, d.result = .ok a → Strict failed expected (f a)) :
    Strict failed expected (d >>= f) := by
  cases hresult : d.result with
  | error e =>
      rw [bind_error d f e hresult]
      exact strict_error _ e (hd.left e hresult)
  | ok a =>
      have hnext := hf a hresult
      rw [bind_ok d f a hresult]
      refine ⟨?_, hnext.left⟩
      intro b hb entry hmem
      rcases List.mem_append.mp hmem with hfirst | hlater
      · exact hd.passed a hresult entry hfirst
      · exact hnext.passed b hb entry hlater

theorem strict_bind (d : Decoder κ ε α) (f : α → Decoder κ ε β)
    (hd : Strict failed expected d) (hf : ∀ a, Strict failed expected (f a)) :
    Strict failed expected (d >>= f) :=
  strict_bind_of_ok d f hd fun a _ => hf a

theorem strict_mapExit {expected' : ε' → Prop} (f : ε → ε') (d : Decoder κ ε α)
    (hd : Strict failed expected d) (hf : ∀ e, expected e → expected' (f e)) :
    Strict failed expected' (d.mapExit f) := by
  cases hresult : d.result with
  | error e =>
      simp only [mapExit, hresult, Except.mapError]
      exact strict_error _ (f e) (hf e (hd.left e hresult))
  | ok a =>
      simp only [mapExit, hresult, Except.mapError]
      constructor
      · intro _ _
        exact hd.passed a hresult
      · intro e h
        cases h

theorem strict_each (f : Nat → γ → Decoder κ ε α) (i : Nat) (items : List γ)
    (hf : ∀ i item, Strict failed expected (f i item)) :
    Strict failed expected (each f i items) := by
  induction items generalizing i with
  | nil => exact strict_pure []
  | cons item rest ih =>
      apply strict_bind _ _ (hf i item)
      intro first
      apply strict_bind _ _ (ih (i + 1))
      intro others
      exact strict_pure _

end Rules

-- Every value that the decoder ends with.
def Returns (P : α → Prop) (d : Decoder κ ε α) : Prop :=
  ∀ a, d.result = .ok a → P a

theorem returns_pure {P : α → Prop} (a : α) (ha : P a) : Returns P (pure a : Decoder κ ε α) := by
  intro b h
  cases h
  exact ha

theorem returns_bind {P : β → Prop} (d : Decoder κ ε α) (f : α → Decoder κ ε β)
    (hf : ∀ a, d.result = .ok a → Returns P (f a)) : Returns P (d >>= f) := by
  intro b h
  cases hresult : d.result with
  | error e =>
      rw [bind_error d f e hresult] at h
      cases h
  | ok a =>
      rw [bind_ok d f a hresult] at h
      exact hf a hresult b h

theorem result_bind (d : Decoder κ ε α) (f : α → Decoder κ ε β) (a : α)
    (h : d.result = .ok a) : (d >>= f).result = (f a).result := by
  rw [bind_ok d f a h]

theorem bind_result_ok (d : Decoder κ ε α) (f : α → Decoder κ ε β) (b : β) :
    (d >>= f).result = .ok b ↔ ∃ a, d.result = .ok a ∧ (f a).result = .ok b := by
  cases h : d.result with
  | error e => simp [bind_error d f e h]
  | ok a => simp [bind_ok d f a h]

theorem each_ok (f : Nat → γ → Decoder κ ε α) (g : γ → α) (i : Nat) (items : List γ)
    (h : ∀ i, ∀ item ∈ items, (f i item).result = .ok (g item)) :
    (each f i items).result = .ok (items.map g) := by
  induction items generalizing i with
  | nil => rfl
  | cons item rest ih =>
      have hrest := ih (i + 1) fun j other hmem => h j other (by simp [hmem])
      rw [each, result_bind _ _ _ (h i item (by simp)), result_bind _ _ _ hrest]
      rfl

-- The items are written from the values that they are decoded to.
theorem each_written (f : Nat → γ → Decoder κ ε α) (create : α → γ) (i : Nat) (as : List α)
    (h : ∀ j, ∀ a ∈ as, (f j (create a)).result = .ok a) :
    (each f i (as.map create)).result = .ok as := by
  induction as generalizing i with
  | nil => rfl
  | cons a rest ih =>
      have hrest := ih (i + 1) fun j other hmem => h j other (by simp [hmem])
      rw [List.map_cons, each, result_bind _ _ _ (h i a (by simp)), result_bind _ _ _ hrest]
      rfl

-- The same result, in a decoder that keeps entries of another kind.
def silent {κ' : Type} (d : Decoder κ ε α) : Decoder κ' ε α := ⟨[], d.result⟩

@[simp] theorem silent_result {κ' : Type} (d : Decoder κ ε α) :
    (silent d : Decoder κ' ε α).result = d.result := rfl

@[simp] theorem look_result (entry : κ) (result : Except ε α) :
    (look entry result).result = result := rfl

theorem each_related (f : Nat → γ → Decoder κ ε α) (i : Nat) (items : List γ) (as : List α)
    (h : (each f i items).result = .ok as) :
    List.Forall₂ (fun item a => item ∈ items ∧ ∃ j, (f j item).result = .ok a) items as := by
  induction items generalizing i as with
  | nil =>
      obtain rfl := Except.ok.inj h
      exact .nil
  | cons item rest ih =>
      simp only [each, bind_result_ok] at h
      obtain ⟨first, hfirst, others, hothers, has⟩ := h
      obtain rfl := Except.ok.inj has
      refine .cons ⟨List.mem_cons_self, i, hfirst⟩ ((ih (i + 1) others hothers).imp ?_)
      rintro other a ⟨hmem, hother⟩
      exact ⟨List.mem_cons_of_mem item hmem, hother⟩

theorem each_all (f : Nat → γ → Decoder κ ε α) (i : Nat) (items : List γ) (as : List α)
    (h : (each f i items).result = .ok as) :
    ∀ item ∈ items, ∃ j a, (f j item).result = .ok a := by
  induction items generalizing i as with
  | nil => simp
  | cons item rest ih =>
      simp only [each, bind_result_ok] at h
      obtain ⟨first, hfirst, others, hothers, _⟩ := h
      rw [List.forall_mem_cons]
      exact ⟨⟨i, first, hfirst⟩, ih (i + 1) others hothers⟩

theorem each_total (f : Nat → γ → Decoder κ ε α) (i : Nat) (items : List γ)
    (h : ∀ j, ∀ item ∈ items, ∃ a, (f j item).result = .ok a) :
    ∃ as, (each f i items).result = .ok as := by
  induction items generalizing i with
  | nil => exact ⟨[], rfl⟩
  | cons item rest ih =>
      obtain ⟨first, hfirst⟩ := h i item (by simp)
      obtain ⟨others, hothers⟩ := ih (i + 1) fun j other hmem => h j other (by simp [hmem])
      refine ⟨first :: others, ?_⟩
      rw [each, result_bind _ _ _ hfirst, result_bind _ _ _ hothers]
      rfl

-- Two decoders that leave with the same exit, or end with related values.
def Agree {κ' : Type} (R : α → β → Prop) (d : Decoder κ ε α) (d' : Decoder κ' ε β) : Prop :=
  (∃ a b, d.result = .ok a ∧ d'.result = .ok b ∧ R a b) ∨
    ∃ e, d.result = .error e ∧ d'.result = .error e

section Agreement

variable {κ' α' β' : Type} {R : α → β → Prop} {S : α' → β' → Prop}

theorem agree_pure (a : α) (b : β) (h : R a b) :
    Agree R (pure a : Decoder κ ε α) (pure b : Decoder κ' ε β) :=
  Or.inl ⟨a, b, rfl, rfl, h⟩

theorem agree_of_result (d : Decoder κ ε α) (d' : Decoder κ' ε α) (h : d.result = d'.result) :
    Agree Eq d d' := by
  cases hd : d'.result with
  | error e => exact Or.inr ⟨e, h.trans hd, hd⟩
  | ok a => exact Or.inl ⟨a, a, h.trans hd, hd, rfl⟩

theorem Agree.result {d : Decoder κ ε α} {d' : Decoder κ' ε α} (h : Agree Eq d d') :
    d.result = d'.result := by
  rcases h with ⟨a, b, hd, hd', rfl⟩ | ⟨e, hd, hd'⟩
  · rw [hd, hd']
  · rw [hd, hd']

theorem agree_bind (d : Decoder κ ε α) (d' : Decoder κ' ε β) (f : α → Decoder κ ε α')
    (f' : β → Decoder κ' ε β') (hd : Agree R d d') (hf : ∀ a b, R a b → Agree S (f a) (f' b)) :
    Agree S (d >>= f) (d' >>= f') := by
  rcases hd with ⟨a, b, hd, hd', hab⟩ | ⟨e, hd, hd'⟩
  · unfold Agree
    rw [result_bind d f a hd, result_bind d' f' b hd']
    exact hf a b hab
  · rw [bind_error d f e hd, bind_error d' f' e hd']
    exact Or.inr ⟨e, rfl, rfl⟩

theorem Agree.mono {d : Decoder κ ε α} {d' : Decoder κ' ε β} {R' : α → β → Prop}
    (h : Agree R d d') (himp : ∀ a b, R a b → R' a b) : Agree R' d d' := by
  rcases h with ⟨a, b, hd, hd', hab⟩ | hleft
  · exact Or.inl ⟨a, b, hd, hd', himp a b hab⟩
  · exact Or.inr hleft

-- A decoder whose value both sides use.
theorem agree_bind_silent (d : Decoder κ' ε α) (f : α → Decoder κ ε α') (f' : α → Decoder κ' ε β')
    (hf : ∀ a, Agree S (f a) (f' a)) : Agree S (d.silent >>= f) (d >>= f') := by
  apply agree_bind d.silent d f f' (agree_of_result _ _ rfl)
  rintro a _ rfl
  exact hf a

-- A step that only keeps an entry.
theorem agree_look_bind (entry : κ) (a : α) (f : α → Decoder κ ε α') (d' : Decoder κ' ε β')
    (hf : Agree S (f a) d') : Agree S (look entry (.ok a) >>= f) d' := by
  unfold Agree
  rw [result_bind (look entry (.ok a)) f a rfl]
  exact hf

theorem agree_map (d : Decoder κ ε α') (d' : Decoder κ' ε β) (g : β → β')
    (hd : Agree (fun a b => S a (g b)) d d') : Agree S d (d' >>= fun b => pure (g b)) := by
  rcases hd with ⟨a, b, hd, hd', hab⟩ | ⟨e, hd, hd'⟩
  · refine Or.inl ⟨a, g b, hd, ?_, hab⟩
    rw [result_bind d' _ b hd']
    rfl
  · rw [bind_error d' _ e hd']
    exact Or.inr ⟨e, hd, rfl⟩

end Agreement

-- An entry that the decoder keeps, on its way to a value or to an exit.
def Meets (P : κ → Prop) (d : Decoder κ ε α) : Prop :=
  ∃ entry ∈ d.lookups, P entry

section Meeting

variable {P : κ → Prop}

theorem meets_pure (a : α) : ¬Meets P (pure a : Decoder κ ε α) := by
  rintro ⟨entry, hmem, _⟩
  exact List.not_mem_nil hmem

theorem meets_silent {κ' : Type} (d : Decoder κ' ε α) : ¬Meets P (silent d) := by
  rintro ⟨entry, hmem, _⟩
  exact List.not_mem_nil hmem

theorem meets_look (entry : κ) (result : Except ε α) : Meets P (look entry result) ↔ P entry := by
  simp [Meets, look]

theorem meets_bind (d : Decoder κ ε α) (f : α → Decoder κ ε β) :
    Meets P (d >>= f) ↔ Meets P d ∨ ∃ a, d.result = .ok a ∧ Meets P (f a) := by
  unfold Meets
  cases h : d.result with
  | error e => simp [bind_error d f e h]
  | ok a =>
      rw [bind_ok d f a h]
      simp only [List.mem_append, or_and_right, exists_or, Except.ok.injEq, exists_eq_left']

theorem meets_look_bind (entry : κ) (a : α) (f : α → Decoder κ ε β) :
    Meets P (look entry (.ok a) >>= f) ↔ P entry ∨ Meets P (f a) := by
  simp only [meets_bind, meets_look, look_result, Except.ok.injEq, exists_eq_left']

-- A list comes to a bad item with its first one, or past it when that one is good.
theorem comesTo_cons (good bad : γ → Prop) (item : γ) (rest : List γ) :
    (bad item ∨ good item ∧ ∃ before other after, rest = before ++ other :: after ∧
      (∀ first ∈ before, good first) ∧ bad other) ↔
    ∃ before other after, item :: rest = before ++ other :: after ∧
      (∀ first ∈ before, good first) ∧ bad other := by
  constructor
  · rintro (hitem | ⟨hgood, before, other, after, rfl, hbefore, hother⟩)
    · exact ⟨[], item, rest, rfl, by simp, hitem⟩
    · refine ⟨item :: before, other, after, rfl, ?_, hother⟩
      rw [List.forall_mem_cons]
      exact ⟨hgood, hbefore⟩
  · rintro ⟨before, other, after, hitems, hbefore, hother⟩
    cases before with
    | nil =>
        obtain ⟨rfl, rfl⟩ := List.cons.inj hitems
        exact Or.inl hother
    | cons first before =>
        obtain ⟨rfl, rfl⟩ := List.cons.inj hitems
        rw [List.forall_mem_cons] at hbefore
        exact Or.inr ⟨hbefore.1, before, other, after, rfl, hbefore.2, hother⟩

-- A loop over items meets what the first items let it come to.
theorem meets_each (f : Nat → γ → Decoder κ ε α) (good bad : γ → Prop) (i : Nat)
    (items : List γ) (hgood : ∀ j item, (∃ a, (f j item).result = .ok a) ↔ good item)
    (hbad : ∀ j < i + items.length, ∀ item, Meets P (f j item) ↔ bad item) :
    Meets P (each f i items) ↔ ∃ before item after, items = before ++ item :: after ∧
      (∀ first ∈ before, good first) ∧ bad item := by
  induction items generalizing i with
  | nil => simp [each, meets_pure]
  | cons item rest ih =>
      simp only [List.length_cons] at hbad
      have hrest := ih (i + 1) fun j hj => hbad j (by omega)
      rw [← comesTo_cons good bad item rest, ← hgood i item, ← hbad i (by omega) item]
      simp only [each, meets_bind, meets_pure, and_false, exists_false, or_false, hrest,
        exists_and_right]

end Meeting

end Decoder
