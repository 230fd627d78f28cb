import Blehostd.Library.Ledger
import Blehostd.Services.Theorems

namespace Blehostd

-- The blocks of an add_svcs request: the services, the characteristics of service si,
-- and the descriptors of its characteristic ci.
inductive Block where
  | svcs
  | chrs (si : Nat)
  | dscs (si ci : Nat)
deriving DecidableEq, Repr

-- The service decoders with the blocks that they obtain.
abbrev Obtaining (α : Type) := Decoder Block SvcErr α

def mallocSuccess (b : Block) : Obtaining (Ptr Block) :=
  .look b (.ok (.block b))

-- The descriptors pointer of bhd_json_chr. A cleared characteristic has none. The
-- descriptors are written behind their block, and such a write is lost.
def obtainChr (si ci : Nat) (parent : Json) : Obtaining (Ptr Block) := do
  let _ ← (need parent "uuid" jsonUuid (svcErr "invalid characteristic UUID")).silent
  let _ ← (need parent "flags" (jsonInt 0 UINT16_MAX)
    (svcErr "invalid characteristic flags")).silent
  let _ ← (need parent "min_key_size" (jsonInt 0 UINT8_MAX)
    (svcErr "invalid characteristic flags")).silent
  let arr ← (want parent "descriptors" jsonArr (svcErr "invalid descriptors")).silent
  match arr with
  | none => pure .null
  | some items =>
      let dscs ← mallocSuccess (.dscs si ci)
      let _ ← (Decoder.each (fun _ item => jsonDsc item) 0 items).silent
      pure dscs

-- The descriptors pointers in a block of characteristics.
def obtainChrs (si : Nat) : Nat → List Json → (Nat → Ptr Block) → Obtaining (Nat → Ptr Block)
  | _, [], slots => pure slots
  | ci, item :: rest, slots => do
      let dscs ← obtainChr si ci item
      obtainChrs si (ci + 1) rest (Function.update slots ci dscs)

-- The members of a service that bhd_destroy_svc and its caller may look at.
structure SvcBlocks where
  numChrs : Nat
  chrs : Ptr Block
  slots : Nat → Ptr Block

-- The block of characteristics is not cleared when it is obtained.
def obtainSvc (si : Nat) (parent : Json) : Obtaining SvcBlocks := do
  let _ ← (need parent "type" jsonSvcType (svcErr "invalid service type")).silent
  let _ ← (need parent "uuid" jsonUuid (svcErr "invalid service UUID")).silent
  let arr ← (want parent "characteristics" jsonArr (svcErr "invalid characteristics")).silent
  match arr with
  | none => pure ⟨0, .null, fun _ => .junk⟩
  | some items =>
      let chrs ← mallocSuccess (.chrs si)
      let slots ← obtainChrs si 0 items fun _ => .junk
      pure ⟨items.length, chrs, slots⟩

-- The loop over the services, with the ones that num_svcs counts at its end.
def obtainSvcs : Nat → List Json → List Block × List SvcBlocks
  | _, [] => ([], [])
  | si, item :: rest =>
      match (obtainSvc si item).result with
      | .error _ => ((obtainSvc si item).lookups, [])
      | .ok svc =>
          let (blocks, svcs) := obtainSvcs (si + 1) rest
          ((obtainSvc si item).lookups ++ blocks, svc :: svcs)

-- bhd_destroy_svc, with the argument of each free.
def destroySvc (svc : SvcBlocks) : List (Ptr Block) :=
  (List.range svc.numChrs).map svc.slots

def Block.svc : Block → Option Nat
  | .svcs => none
  | .chrs si => some si
  | .dscs si _ => some si

-- What bhd_add_svcs_req_run obtains and releases. The request has been cleared, so there
-- is no block of services to release when there is no array.
def addSvcsLedger (parent : Json) : List (MemOp Block) :=
  match jsonArr parent "services" with
  | .error _ => [.free .null]
  | .ok items =>
      let (blocks, svcs) := obtainSvcs 0 items
      .malloc .svcs :: blocks.map .malloc ++ ((svcs.map destroySvc).flatten.map .free ++
        [.free (.block .svcs)])

-- The blocks change nothing in the results of the decoders.
theorem obtainChr_agrees (si ci : Nat) (junk : Nat → Gatts.Dsc) (parent : Json) :
    Decoder.Agree (fun _ _ => True) (obtainChr si ci parent) (jsonChr junk parent) := by
  apply Decoder.agree_bind_silent
  intro uuid
  apply Decoder.agree_bind_silent
  intro flags
  apply Decoder.agree_bind_silent
  intro minKeySize
  apply Decoder.agree_bind_silent
  intro arr
  cases arr with
  | none => exact Decoder.agree_pure _ _ trivial
  | some items =>
      apply Decoder.agree_look_bind
      apply Decoder.agree_bind_silent
      intro dscs
      exact Decoder.agree_pure _ _ trivial

theorem obtainChrs_agrees (si ci : Nat) (junk : Nat → Nat → Gatts.Dsc) (items : List Json)
    (slots : Nat → Ptr Block) :
    Decoder.Agree (fun _ chrs => chrs.length = items.length) (obtainChrs si ci items slots)
      (Decoder.each (fun ci item => jsonChr (junk ci) item) ci items) := by
  induction items generalizing ci slots with
  | nil => exact Decoder.agree_pure _ _ rfl
  | cons item rest ih =>
      apply Decoder.agree_bind _ _ _ _ (obtainChr_agrees si ci (junk ci) item)
      intro dscs chr _
      apply Decoder.agree_map
      apply (ih (ci + 1) (Function.update slots ci dscs)).mono
      intro filled chrs hlength
      rw [List.length_cons, List.length_cons, hlength]

theorem obtainSvc_agrees (si : Nat) (junk : Nat → Nat → Gatts.Dsc) (parent : Json) :
    Decoder.Agree (fun blocks svc => blocks.numChrs = svc.chrs.length) (obtainSvc si parent)
      (jsonSvc junk parent) := by
  apply Decoder.agree_bind_silent
  intro type
  apply Decoder.agree_bind_silent
  intro uuid
  apply Decoder.agree_bind_silent
  intro arr
  cases arr with
  | none => exact Decoder.agree_pure _ _ rfl
  | some items =>
      apply Decoder.agree_look_bind
      apply Decoder.agree_bind _ _ _ _ (obtainChrs_agrees si 0 junk items fun _ => .junk)
      intro slots chrs hlength
      exact Decoder.agree_pure _ _ hlength.symm

theorem obtainSvc_ok_iff (si : Nat) (parent : Json) :
    (∃ svc, (obtainSvc si parent).result = .ok svc) ↔ ValidSvc parent := by
  rw [← validSvc_iff parent fun _ _ => ⟨.zero, 0, 0⟩]
  rcases obtainSvc_agrees si (fun _ _ => ⟨.zero, 0, 0⟩) parent with
    ⟨blocks, svc, hblocks, hsvc, _⟩ | ⟨e, hblocks, hsvc⟩
  · exact iff_of_true ⟨blocks, hblocks⟩ ⟨svc, hsvc⟩
  · exact iff_of_false (by simp [hblocks]) (by simp [hsvc])

section Settling

variable {α β : Type}

-- The decoder obtains blocks of its own, each of them once. From what it ends with they
-- can be released, except that no pointer to a block of characteristics is among these.
structure Settles (own : Block → Prop) (free : α → List (Ptr Block)) (d : Obtaining α) :
    Prop where
  own : ∀ b ∈ d.lookups, own b
  obtained : d.lookups.Nodup
  released : ∀ a, d.result = .ok a → Ledger.Releases d.lookups (free a)
  kept : ∀ a, d.result = .ok a → ∀ si, .block (.chrs si) ∉ free a

theorem settles_pure (own : Block → Prop) (free : α → List (Ptr Block)) (a : α)
    (hfree : ∀ ptr ∈ free a, ptr = .null) : Settles own free (pure a) where
  own b hb := absurd hb List.not_mem_nil
  obtained := List.nodup_nil
  released b hb := by
    obtain rfl := Except.ok.inj hb
    exact Ledger.releases_nulls (free a) hfree
  kept b hb si hmem := by
    obtain rfl := Except.ok.inj hb
    cases hfree _ hmem

theorem settles_bind {own own' : Block → Prop} {free : α → List (Ptr Block)}
    {free' : β → List (Ptr Block)} (later : α → β → List (Ptr Block)) (d : Obtaining α)
    (f : α → Obtaining β) (hd : Settles own free d)
    (hf : ∀ a, d.result = .ok a → Settles own' (later a) (f a))
    (hfree : ∀ a b, d.result = .ok a → (f a).result = .ok b → free' b = free a ++ later a b)
    (hdisjoint : ∀ b, own b → ¬own' b) :
    Settles (fun b => own b ∨ own' b) free' (d >>= f) := by
  cases ha : d.result with
  | error e =>
      rw [Decoder.bind_error d f e ha]
      refine ⟨fun b hb => Or.inl (hd.own b hb), hd.obtained, ?_, ?_⟩
      · intro b hb
        cases hb
      · intro b hb
        cases hb
  | ok a =>
      have hnext := hf a ha
      have hlists : d.lookups.Disjoint (f a).lookups := by
        intro b hb hb'
        exact hdisjoint b (hd.own b hb) (hnext.own b hb')
      rw [Decoder.bind_ok d f a ha]
      refine ⟨?_, List.Nodup.append hd.obtained hnext.obtained hlists, ?_, ?_⟩
      · intro b hb
        rcases List.mem_append.mp hb with hfirst | hlater
        · exact Or.inl (hd.own b hfirst)
        · exact Or.inr (hnext.own b hlater)
      · intro b hb
        rw [hfree a b ha hb]
        exact (hd.released a ha).append (hnext.released b hb) hlists
      · intro b hb si hmem
        rw [hfree a b ha hb] at hmem
        rcases List.mem_append.mp hmem with hfirst | hlater
        · exact hd.kept a ha si hfirst
        · exact hnext.kept b hb si hlater

theorem Settles.mono {own own' : Block → Prop} {free : α → List (Ptr Block)} {d : Obtaining α}
    (h : Settles own free d) (himp : ∀ b, own b → own' b) : Settles own' free d :=
  ⟨fun b hb => himp b (h.own b hb), h.obtained, h.released, h.kept⟩

theorem settles_silent_bind {κ : Type} {own : Block → Prop} {free : β → List (Ptr Block)}
    (d : Decoder κ SvcErr α) (f : α → Obtaining β) (hf : ∀ a, Settles own free (f a)) :
    Settles own free (d.silent >>= f) := by
  cases ha : d.result with
  | error e =>
      rw [Decoder.bind_error d.silent f e ha]
      refine ⟨?_, List.nodup_nil, ?_, ?_⟩
      · intro b hb
        exact absurd hb List.not_mem_nil
      · intro b hb
        cases hb
      · intro b hb
        cases hb
  | ok a =>
      rw [Decoder.bind_ok d.silent f a ha]
      exact hf a

-- A block to which no pointer is freed.
theorem settles_malloc (b : Block) :
    Settles (fun other => other = b) (fun _ => []) (mallocSuccess b) where
  own _ hother := List.mem_singleton.mp hother
  obtained := List.nodup_singleton b
  released _ _ := (Ledger.releases_block b).none
  kept _ _ _ hmem := absurd hmem List.not_mem_nil

-- A block that stays when what is decoded into it is refused.
theorem settles_block {κ : Type} (b : Block) (d : Decoder κ SvcErr α)
    (hb : ∀ si, b ≠ .chrs si) :
    Settles (fun other => other = b) (fun ptr => [ptr])
      (mallocSuccess b >>= fun ptr => d.silent >>= fun _ => pure ptr) := by
  cases hd : d.result with
  | error e =>
      simp only [bind, mallocSuccess, Decoder.look, Decoder.silent, hd]
      refine ⟨fun other h => List.mem_singleton.mp h, List.nodup_singleton b, ?_, ?_⟩
      · intro ptr hok
        cases hok
      · intro ptr hok
        cases hok
  | ok a =>
      simp only [bind, mallocSuccess, Decoder.look, Decoder.silent, hd]
      refine ⟨fun other h => List.mem_singleton.mp h, List.nodup_singleton b, ?_, ?_⟩
      · intro ptr hok
        obtain rfl := Except.ok.inj hok
        exact Ledger.releases_block b
      · intro ptr hok si hmem
        obtain rfl := Except.ok.inj hok
        exact hb si (Ptr.block.inj (List.mem_singleton.mp hmem)).symm

end Settling

theorem obtainChr_settles (si ci : Nat) (parent : Json) :
    Settles (fun b => b = .dscs si ci) (fun dscs => [dscs]) (obtainChr si ci parent) := by
  apply settles_silent_bind
  intro uuid
  apply settles_silent_bind
  intro flags
  apply settles_silent_bind
  intro minKeySize
  apply settles_silent_bind
  intro arr
  cases arr with
  | none => exact settles_pure _ _ _ fun ptr hptr => List.mem_singleton.mp hptr
  | some items =>
      exact settles_block (.dscs si ci) (Decoder.each (fun _ item => jsonDsc item) 0 items)
        fun sj h => Block.noConfusion h

theorem obtainChrs_keeps (si ci : Nat) (items : List Json) (slots filled : Nat → Ptr Block)
    (h : (obtainChrs si ci items slots).result = .ok filled) : ∀ j < ci, filled j = slots j := by
  induction items generalizing ci slots with
  | nil =>
      obtain rfl := Except.ok.inj h
      intro j _
      rfl
  | cons item rest ih =>
      obtain ⟨dscs, _, hrest⟩ := (Decoder.bind_result_ok _ _ _).mp h
      intro j hj
      rw [ih (ci + 1) _ hrest j (by omega), Function.update_of_ne (by omega)]

theorem obtainChrs_settles (si ci : Nat) (items : List Json) (slots : Nat → Ptr Block) :
    Settles (fun b => ∃ cj, ci ≤ cj ∧ b = .dscs si cj)
      (fun filled => (List.range' ci items.length).map filled) (obtainChrs si ci items slots) := by
  induction items generalizing ci slots with
  | nil => exact settles_pure _ _ _ fun ptr hptr => absurd hptr List.not_mem_nil
  | cons item rest ih =>
      have hrest := fun dscs => ih (ci + 1) (Function.update slots ci dscs)
      refine (settles_bind _ _ _ (obtainChr_settles si ci item) (fun dscs _ => hrest dscs)
        ?_ ?_).mono ?_
      · intro dscs filled _ hfilled
        have hslot := obtainChrs_keeps si (ci + 1) rest _ filled hfilled ci (Nat.lt_succ_self ci)
        rw [Function.update_self] at hslot
        rw [List.length_cons, List.range'_succ, List.map_cons, hslot]
        rfl
      · rintro b rfl ⟨cj, hcj, hb⟩
        have hsame := (Block.dscs.inj hb).2
        omega
      · rintro b (rfl | ⟨cj, hcj, rfl⟩)
        · exact ⟨ci, Nat.le_refl ci, rfl⟩
        · exact ⟨cj, by omega, rfl⟩

-- The descriptors of a service are freed through the block of its characteristics.
theorem svcBlocks_settles (si : Nat) (items : List Json) (chrs : Ptr Block) :
    Settles (fun b => ∃ cj, b = .dscs si cj) destroySvc
      (obtainChrs si 0 items (fun _ => .junk) >>= fun slots =>
        pure ⟨items.length, chrs, slots⟩) := by
  have hchrs := obtainChrs_settles si 0 items fun _ => .junk
  have hpure : ∀ slots, Settles (fun _ => False) (fun _ => [])
      (pure ⟨items.length, chrs, slots⟩ : Obtaining SvcBlocks) := fun slots =>
    settles_pure _ _ _ fun ptr hptr => absurd hptr List.not_mem_nil
  refine (settles_bind (fun _ _ => []) _ _ hchrs (fun slots _ => hpure slots) ?_ ?_).mono ?_
  · intro slots svc _ hsvc
    obtain rfl := Except.ok.inj hsvc
    rw [List.append_nil, destroySvc, List.range_eq_range']
  · rintro b _ hfalse
    exact hfalse
  · rintro b (⟨cj, _, rfl⟩ | hfalse)
    · exact ⟨cj, rfl⟩
    · exact hfalse.elim

-- The pointer to the block of characteristics is not among those that are freed.
theorem obtainSvc_settles (si : Nat) (parent : Json) :
    Settles (fun b => b.svc = some si) destroySvc (obtainSvc si parent) := by
  apply settles_silent_bind
  intro type
  apply settles_silent_bind
  intro uuid
  apply settles_silent_bind
  intro arr
  cases arr with
  | none => exact settles_pure _ _ _ fun ptr hptr => absurd hptr List.not_mem_nil
  | some items =>
      refine (settles_bind (fun _ svc => destroySvc svc) _ _ (settles_malloc (.chrs si))
        (fun chrs _ => svcBlocks_settles si items chrs) ?_ ?_).mono ?_
      · intro chrs svc _ _
        rfl
      · rintro b rfl ⟨cj, hb⟩
        cases hb
      · rintro b (rfl | ⟨cj, rfl⟩)
        · rfl
        · rfl

theorem obtainSvcs_cons (si : Nat) (item : Json) (rest : List Json) (svc : SvcBlocks)
    (h : (obtainSvc si item).result = .ok svc) :
    obtainSvcs si (item :: rest) = ((obtainSvc si item).lookups ++ (obtainSvcs (si + 1) rest).1,
      svc :: (obtainSvcs (si + 1) rest).2) := by
  simp only [obtainSvcs, h]

theorem obtainSvcs_refused (si : Nat) (item : Json) (rest : List Json) (e : SvcErr)
    (h : (obtainSvc si item).result = .error e) :
    obtainSvcs si (item :: rest) = ((obtainSvc si item).lookups, []) := by
  simp only [obtainSvcs, h]

-- The loop counts every service when the request is accepted.
theorem obtainSvcs_count (junk : Nat → Nat → Nat → Gatts.Dsc) (si : Nat) (items : List Json) :
    (obtainSvcs si items).2.length = items.length ↔
      ∃ svcs, (Decoder.each (fun si item => jsonSvc (junk si) item) si items).result =
        .ok svcs := by
  induction items generalizing si with
  | nil => exact iff_of_true rfl ⟨[], rfl⟩
  | cons item rest ih =>
      rcases obtainSvc_agrees si (junk si) item with ⟨blocks, svc, hblocks, hsvc, _⟩ | ⟨e, he, hsvc⟩
      · rw [obtainSvcs_cons si item rest blocks hblocks, List.length_cons, List.length_cons,
          Nat.add_right_cancel_iff, ih (si + 1)]
        simp only [Decoder.each, Decoder.bind_result_ok, hsvc]
        constructor
        · rintro ⟨svcs, hsvcs⟩
          exact ⟨svc :: svcs, svc, rfl, svcs, hsvcs, rfl⟩
        · rintro ⟨_, _, _, svcs, hsvcs, _⟩
          exact ⟨svcs, hsvcs⟩
      · rw [obtainSvcs_refused si item rest e he]
        refine iff_of_false ?_ ?_
        · simp
        · rintro ⟨svcs, hsvcs⟩
          simp only [Decoder.each, Decoder.bind_result_ok, hsvc] at hsvcs
          obtain ⟨_, hnone, _⟩ := hsvcs
          cases hnone

-- The pointers that bhd_add_svcs_req_run frees for its services.
def freedPtrs (svcs : List SvcBlocks) : List (Ptr Block) :=
  (svcs.map destroySvc).flatten

theorem obtainSvcs_own (si : Nat) (items : List Json) :
    ∀ b ∈ (obtainSvcs si items).1, ∃ sj, si ≤ sj ∧ b.svc = some sj := by
  induction items generalizing si with
  | nil => simp [obtainSvcs]
  | cons item rest ih =>
      have hown := (obtainSvc_settles si item).own
      intro b hb
      cases hsvc : (obtainSvc si item).result with
      | error e =>
          rw [obtainSvcs_refused si item rest e hsvc] at hb
          exact ⟨si, Nat.le_refl si, hown b hb⟩
      | ok svc =>
          rw [obtainSvcs_cons si item rest svc hsvc] at hb
          rcases List.mem_append.mp hb with hfirst | hlater
          · exact ⟨si, Nat.le_refl si, hown b hfirst⟩
          · obtain ⟨sj, hsj, hb⟩ := ih (si + 1) b hlater
            exact ⟨sj, by omega, hb⟩

theorem obtainSvcs_releases (si : Nat) (items : List Json) :
    Ledger.Releases (obtainSvcs si items).1 (freedPtrs (obtainSvcs si items).2) ∧
      ∀ sj, .block (.chrs sj) ∉ freedPtrs (obtainSvcs si items).2 := by
  induction items generalizing si with
  | nil => exact ⟨Ledger.releases_nulls [] (by simp), by simp [obtainSvcs, freedPtrs]⟩
  | cons item rest ih =>
      have hitem := obtainSvc_settles si item
      cases hsvc : (obtainSvc si item).result with
      | error e =>
          rw [obtainSvcs_refused si item rest e hsvc]
          refine ⟨⟨hitem.obtained, by simp [freedPtrs], List.nodup_nil, by simp [freedPtrs]⟩, ?_⟩
          simp [freedPtrs]
      | ok svc =>
          obtain ⟨hrest, hkept⟩ := ih (si + 1)
          have hdisjoint : (obtainSvc si item).lookups.Disjoint (obtainSvcs (si + 1) rest).1 := by
            intro b hb hb'
            obtain ⟨sj, hsj, hother⟩ := obtainSvcs_own (si + 1) rest b hb'
            have hsame := (hitem.own b hb).symm.trans hother
            rw [Option.some.injEq] at hsame
            omega
          have hfreed : freedPtrs (svc :: (obtainSvcs (si + 1) rest).2) =
              destroySvc svc ++ freedPtrs (obtainSvcs (si + 1) rest).2 := by
            rw [freedPtrs, List.map_cons, List.flatten_cons, freedPtrs]
          rw [obtainSvcs_cons si item rest svc hsvc, hfreed]
          refine ⟨(hitem.released svc hsvc).append hrest hdisjoint, ?_⟩
          intro sj hmem
          rcases List.mem_append.mp hmem with hfirst | hlater
          · exact hitem.kept svc hsvc sj hfirst
          · exact hkept sj hlater

-- The service has a block of characteristics, also an empty one.
def TakesChrs (parent : Json) : Prop :=
  ValidSvcFields parent ∧ ∃ items, parent.getObjectItem "characteristics" = some (.array items)

theorem obtainSvc_meets (P : Block → Prop) (si : Nat) (parent : Json) :
    (obtainSvc si parent).Meets P → TakesChrs parent := by
  unfold obtainSvc TakesChrs
  simp only [Decoder.meets_bind, Decoder.meets_silent, Decoder.silent_result, need_ok_iff,
    false_or]
  rintro ⟨type, htype, uuid, huuid, arr, harr, hmeets⟩
  refine ⟨⟨⟨type, htype⟩, ⟨uuid, huuid⟩⟩, ?_⟩
  cases arr with
  | none => exact absurd hmeets (Decoder.meets_pure _)
  | some items =>
      rcases (want_ok_iff _ _ _ _ _).mp harr with ⟨found, hfound, hitems⟩ | ⟨_, hnone⟩
      · exact ⟨found, (jsonArr_ok _ _ _).mp hfound⟩
      · cases hnone

theorem obtainSvc_chrs (si : Nat) (parent : Json) (h : TakesChrs parent) :
    .chrs si ∈ (obtainSvc si parent).lookups := by
  obtain ⟨⟨⟨type, htype⟩, ⟨uuid, huuid⟩⟩, items, hitems⟩ := h
  have hmeets : (obtainSvc si parent).Meets (· = .chrs si) := by
    unfold obtainSvc
    simp only [Decoder.meets_bind, Decoder.meets_silent, Decoder.silent_result, need_ok_iff,
      false_or]
    have harr := (want_ok_iff parent "characteristics" jsonArr (svcErr "invalid characteristics")
      (some items)).mpr (Or.inl ⟨items, (jsonArr_ok _ _ _).mpr hitems, rfl⟩)
    refine ⟨type, htype, uuid, huuid, some items, harr, ?_⟩
    show Decoder.Meets _ (mallocSuccess (.chrs si) >>= _)
    exact (Decoder.meets_bind _ _).mpr (Or.inl ((Decoder.meets_look _ _).mpr rfl))
  obtain ⟨b, hb, rfl⟩ := hmeets
  exact hb

-- The loop comes to such a service: the services before it are valid.
def ReachesChrs (items : List Json) : Prop :=
  ∃ before item after, items = before ++ item :: after ∧ (∀ svc ∈ before, ValidSvc svc) ∧
    TakesChrs item

theorem reachesChrs_cons (item : Json) (rest : List Json) :
    ReachesChrs (item :: rest) ↔ TakesChrs item ∨ ValidSvc item ∧ ReachesChrs rest := by
  constructor
  · rintro ⟨before, other, after, hitems, hvalid, htakes⟩
    cases before with
    | nil =>
        obtain ⟨rfl, rfl⟩ := List.cons.inj hitems
        exact Or.inl htakes
    | cons first before =>
        obtain ⟨rfl, rfl⟩ := List.cons.inj hitems
        rw [List.forall_mem_cons] at hvalid
        exact Or.inr ⟨hvalid.1, before, other, after, rfl, hvalid.2, htakes⟩
  · rintro (htakes | ⟨hfirst, before, other, after, rfl, hvalid, htakes⟩)
    · exact ⟨[], item, rest, rfl, by simp, htakes⟩
    · exact ⟨item :: before, other, after, rfl, List.forall_mem_cons.mpr ⟨hfirst, hvalid⟩, htakes⟩

theorem obtainSvcs_chrs (si : Nat) (items : List Json) (h : ReachesChrs items) :
    ∃ sj, .chrs sj ∈ (obtainSvcs si items).1 := by
  induction items generalizing si with
  | nil =>
      obtain ⟨before, item, after, hitems, _⟩ := h
      simp at hitems
  | cons item rest ih =>
      rcases (reachesChrs_cons item rest).mp h with htakes | ⟨hvalid, hrest⟩
      · have hmem := obtainSvc_chrs si item htakes
        cases hsvc : (obtainSvc si item).result with
        | error e =>
            rw [obtainSvcs_refused si item rest e hsvc]
            exact ⟨si, hmem⟩
        | ok svc =>
            rw [obtainSvcs_cons si item rest svc hsvc]
            exact ⟨si, List.mem_append_left _ hmem⟩
      · obtain ⟨svc, hsvc⟩ := (obtainSvc_ok_iff si item).mpr hvalid
        obtain ⟨sj, hmem⟩ := ih (si + 1) hrest
        rw [obtainSvcs_cons si item rest svc hsvc]
        exact ⟨sj, List.mem_append_right _ hmem⟩

theorem obtainSvcs_none (si : Nat) (items : List Json) (h : ¬ReachesChrs items) :
    (obtainSvcs si items).1 = [] := by
  induction items generalizing si with
  | nil => rfl
  | cons item rest ih =>
      rw [reachesChrs_cons, not_or] at h
      have hnone : (obtainSvc si item).lookups = [] := by
        rw [List.eq_nil_iff_forall_not_mem]
        intro b hb
        exact h.1 (obtainSvc_meets (fun _ => True) si item ⟨b, hb, trivial⟩)
      cases hsvc : (obtainSvc si item).result with
      | error e => rw [obtainSvcs_refused si item rest e hsvc, hnone]
      | ok svc =>
          have hvalid := (obtainSvc_ok_iff si item).mp ⟨svc, hsvc⟩
          rw [obtainSvcs_cons si item rest svc hsvc, hnone, List.nil_append]
          exact ih (si + 1) fun hrest => h.2 ⟨hvalid, hrest⟩

theorem addSvcsLedger_array (parent : Json) (items : List Json)
    (h : parent.getObjectItem "services" = some (.array items)) :
    addSvcsLedger parent = (Block.svcs :: (obtainSvcs 0 items).1).map .malloc ++
      (freedPtrs (obtainSvcs 0 items).2 ++ [Ptr.block Block.svcs]).map .free := by
  have harr := (jsonArr_ok parent "services" items).mpr h
  simp [addSvcsLedger, harr, freedPtrs]

theorem addSvcsLedger_none (parent : Json)
    (h : ¬∃ items, parent.getObjectItem "services" = some (.array items)) :
    addSvcsLedger parent = [.free .null] := by
  cases harr : jsonArr parent "services" with
  | error e => simp only [addSvcsLedger, harr]
  | ok items => exact absurd ⟨items, (jsonArr_ok _ _ _).mp harr⟩ h

theorem addSvcs_releases (items : List Json) :
    Ledger.Releases (.svcs :: (obtainSvcs 0 items).1)
      (freedPtrs (obtainSvcs 0 items).2 ++ [Ptr.block Block.svcs]) := by
  obtain ⟨hreleases, _⟩ := obtainSvcs_releases 0 items
  refine (hreleases.append (Ledger.releases_block .svcs) ?_).perm
    (List.perm_append_singleton _ _) (List.Perm.refl _)
  intro b hb hsvcs
  obtain rfl := List.mem_singleton.mp hsvcs
  obtain ⟨sj, _, hnone⟩ := obtainSvcs_own 0 items .svcs hb
  cases hnone

-- In every request nothing but initialised pointers to blocks that are held is freed, and
-- the block of the services does not stay.
theorem addSvcsLedger_runs (parent : Json) :
    ∃ held, Ledger.run ∅ (addSvcsLedger parent) = some held ∧ .svcs ∉ held := by
  by_cases harray : ∃ items, parent.getObjectItem "services" = some (.array items)
  · obtain ⟨items, hitems⟩ := harray
    have hrun := (addSvcs_releases items).run
    rw [← addSvcsLedger_array parent items hitems] at hrun
    refine ⟨_, hrun, ?_⟩
    simp [Ledger.blockOf]
  · refine ⟨∅, ?_, Finset.notMem_empty _⟩
    rw [addSvcsLedger_none parent harray]
    rfl

-- A block of characteristics is obtained.
def ObtainsChrs (parent : Json) : Prop :=
  ∃ items, parent.getObjectItem "services" = some (.array items) ∧ ReachesChrs items

theorem ledger_balanced_iff (parent : Json) :
    Ledger.Balanced (addSvcsLedger parent) ↔ ¬ObtainsChrs parent := by
  by_cases harray : ∃ items, parent.getObjectItem "services" = some (.array items)
  · obtain ⟨items, hitems⟩ := harray
    rw [addSvcsLedger_array parent items hitems, (addSvcs_releases items).balanced_iff]
    constructor
    · rintro hfreed ⟨others, hothers, hreaches⟩
      obtain rfl := Json.array.inj (Option.some.inj (hitems.symm.trans hothers))
      obtain ⟨sj, hchrs⟩ := obtainSvcs_chrs 0 items hreaches
      rcases List.mem_append.mp (hfreed _ (List.mem_cons_of_mem _ hchrs)) with hsvc | hlast
      · exact (obtainSvcs_releases 0 items).2 sj hsvc
      · cases List.mem_singleton.mp hlast
    · intro hnone
      have hblocks := obtainSvcs_none 0 items fun hreaches => hnone ⟨items, hitems, hreaches⟩
      rw [hblocks]
      intro b hb
      obtain rfl := List.mem_singleton.mp hb
      exact List.mem_append_right _ List.mem_cons_self
  · refine iff_of_true ?_ ?_
    · rw [addSvcsLedger_none parent harray]
      rfl
    · rintro ⟨items, hitems, _⟩
      exact harray ⟨items, hitems⟩

def chrRequest : Json :=
  .object [(ascii "services", .array [.object [(ascii "type", .string (ascii "primary")),
    (ascii "uuid", .number 0x180f), (ascii "characteristics", .array [.object [
      (ascii "uuid", .number 0x2a19), (ascii "flags", .number 2),
      (ascii "min_key_size", .number 0)]])]])]

-- Of two blocks one is released.
theorem chrs_block_leaks :
    addSvcsLedger chrRequest =
      [.malloc .svcs, .malloc (.chrs 0), .free .null, .free (.block .svcs)] ∧
    Ledger.run ∅ (addSvcsLedger chrRequest) = some {.chrs 0} ∧
    ¬Ledger.Balanced (addSvcsLedger chrRequest) := by
  have hledger : addSvcsLedger chrRequest =
      [.malloc .svcs, .malloc (.chrs 0), .free .null, .free (.block .svcs)] := by rfl
  have hrun : Ledger.run ∅ (addSvcsLedger chrRequest) = some {.chrs 0} := by
    rw [hledger]
    decide
  refine ⟨hledger, hrun, ?_⟩
  intro hbalanced
  have hempty := Option.some.inj (hrun.symm.trans hbalanced)
  exact Finset.singleton_ne_empty _ hempty

end Blehostd
