import Blehostd.Gatts.Capacity
import Blehostd.Gatts.Numbering
import Mathlib.Data.List.Pairwise

namespace Blehostd.Gatts

theorem Numbered.putSvc {attrs : List (Attr × Nat)} {chrs n : Nat} {s : State} (svc : Svc)
    (h : Numbered attrs chrs n s) : Numbered attrs chrs n (s.putSvc svc) :=
  ⟨h.nextSeq, h.args, h.nodup, h.chrs, h.dscs⟩

theorem attrArg_putChr (chr : Chr) (s : State) (a : Attr) :
    (s.putChr chr).attrArg a = if a = .chr s.numChrs then some s.nextSeq else s.attrArg a := by
  cases a with
  | chr i => by_cases hi : i = s.numChrs <;> simp [State.attrArg, State.putChr, hi]
  | dsc i => simp [State.attrArg, State.putChr]

theorem attrArg_putDsc (dsc : Dsc) (s : State) (a : Attr) :
    (s.putDsc dsc).attrArg a = if a = .dsc s.numDscs then some s.nextSeq else s.attrArg a := by
  cases a with
  | chr i => simp [State.attrArg, State.putDsc]
  | dsc i => by_cases hi : i = s.numDscs <;> simp [State.attrArg, State.putDsc, hi]

theorem Numbered.putChr {attrs : List (Attr × Nat)} {n : Nat} {s : State} (chr : Chr)
    (h : Numbered attrs s.numChrs n s) :
    Numbered (attrs ++ [(.chr s.numChrs, n)]) (s.numChrs + 1) (n + 1) (s.putChr chr) := by
  apply h.put
  · simp [State.attrArg, h.chrs s.numChrs (Nat.le_refl _)]
  · rfl
  · rw [attrArg_putChr, if_pos rfl]
  · intro b hb
    rw [attrArg_putChr, if_neg hb]
  · intro i hi
    have hne : i ≠ s.numChrs := by omega
    simpa [State.putChr, hne] using h.chrs i (by omega)
  · exact h.dscs

theorem Numbered.putDsc {attrs : List (Attr × Nat)} {chrs n : Nat} {s : State} (dsc : Dsc)
    (h : Numbered attrs chrs n s) :
    Numbered (attrs ++ [(.dsc s.numDscs, n)]) chrs (n + 1) (s.putDsc dsc) := by
  apply h.put
  · simp [State.attrArg, h.dscs s.numDscs (Nat.le_refl _)]
  · rfl
  · rw [attrArg_putDsc, if_pos rfl]
  · intro b hb
    rw [attrArg_putDsc, if_neg hb]
  · exact h.chrs
  · intro i hi
    have hbound : s.numDscs + 1 ≤ i := hi
    have hne : i ≠ s.numDscs := by omega
    simpa [State.putDsc, hne] using h.dscs i (by omega)

theorem Numbered.endDscs {attrs : List (Attr × Nat)} {chrs n : Nat} {s : State}
    (h : Numbered attrs chrs n s) : Numbered attrs chrs n s.endDscs :=
  ⟨h.nextSeq, h.args, h.nodup, h.chrs, fun i hi => h.dscs i (Nat.le_of_succ_le hi)⟩

theorem Numbered.endChrs {attrs : List (Attr × Nat)} {chrs n : Nat} {s : State}
    (h : Numbered attrs chrs n s) : Numbered attrs chrs n s.endChrs :=
  ⟨h.nextSeq, h.args, h.nodup, h.chrs, h.dscs⟩

theorem Numbered.endSvcs {attrs : List (Attr × Nat)} {chrs n : Nat} {s : State}
    (h : Numbered attrs chrs n s) : Numbered attrs chrs n s.endSvcs :=
  ⟨h.nextSeq, h.args, h.nodup, h.chrs, h.dscs⟩

theorem Numbered.later {attrs : List (Attr × Nat)} {chrs chrs' n : Nat} {s : State}
    (h : Numbered attrs chrs n s) (hle : chrs ≤ chrs') : Numbered attrs chrs' n s :=
  ⟨h.nextSeq, h.args, h.nodup, fun i hi => h.chrs i (Nat.le_trans hle hi), h.dscs⟩

-- The attributes of a run that has made `start` calls for `before` attributes,
-- after `n` more calls that are all for attributes.
def DrawsFrom (before : List Nat) (start chrs n : Nat) (s : State) : Prop :=
  ∃ attrs, Numbered attrs chrs (start + n) s ∧ attrs.map Prod.snd = before ++ List.range' start n

theorem DrawsFrom.next {before : List Nat} {start chrs n k : Nat} {s : State}
    {attrs : List (Attr × Nat)} {a : Attr}
    (h : Numbered (attrs ++ [(a, start + n)]) chrs (start + n + 1) s)
    (hdraws : attrs.map Prod.snd = before ++ List.range' start n) (hk : k = n + 1) :
    DrawsFrom before start chrs k s := by
  subst hk
  refine ⟨_, h, ?_⟩
  rw [List.map_append, hdraws, List.map_singleton, List.append_assoc, List.range'_1_concat]

theorem drawsFrom_saving (before : List Nat) (start : Nat) :
    Saving (fun n s => DrawsFrom before start s.numChrs n s)
      (fun n s => DrawsFrom before start (s.numChrs + 1) n s) where
  putSvc svc n s h := by
    obtain ⟨attrs, hnumbered, hdraws⟩ := h
    exact ⟨attrs, hnumbered.putSvc svc, hdraws⟩
  putChr chr n s h := by
    obtain ⟨attrs, hnumbered, hdraws⟩ := h
    exact DrawsFrom.next (hnumbered.putChr chr) hdraws rfl
  putDsc dsc n s h := by
    obtain ⟨attrs, hnumbered, hdraws⟩ := h
    exact DrawsFrom.next (hnumbered.putDsc dsc) hdraws rfl
  endDscs n s h := by
    obtain ⟨attrs, hnumbered, hdraws⟩ := h
    exact ⟨attrs, hnumbered.endDscs, hdraws⟩
  endChr n s h := by
    obtain ⟨attrs, hnumbered, hdraws⟩ := h
    exact ⟨attrs, hnumbered.endChrs, hdraws⟩
  endChrs n s h := by
    obtain ⟨attrs, hnumbered, hdraws⟩ := h
    exact ⟨attrs, (hnumbered.later (Nat.le_succ s.numChrs)).endChrs, hdraws⟩
  endSvcs n s h := by
    obtain ⟨attrs, hnumbered, hdraws⟩ := h
    exact ⟨attrs, hnumbered.endSvcs, hdraws⟩

theorem run_numbered (events : List TableEvent) (attrs : List (Attr × Nat)) (n : Nat)
    (s last : State) (h : Numbered attrs s.numChrs n s)
    (hrun : Transition.run State.step s events = some last) :
    ∃ later count, Numbered later last.numChrs count last ∧
      later.map Prod.snd = attrs.map Prod.snd ++ attrDraws n events := by
  induction events generalizing attrs n s with
  | nil =>
      cases hrun
      exact ⟨attrs, n, h, (List.append_nil _).symm⟩
  | cons event rest ih =>
      obtain ⟨mid, hmid, hrest⟩ := Transition.run_cons hrun
      cases event with
      | add svcs =>
          have hadd := (s.step_add mid svcs).mp hmid
          have hstart : DrawsFrom (attrs.map Prod.snd) n s.numChrs 0 s :=
            ⟨attrs, h, (List.append_nil _).symm⟩
          obtain ⟨attrs', hnumbered, hdraws⟩ := (drawsFrom_saving _ n).add svcs s mid hstart hadd
          obtain ⟨later, count, hlast, hlater⟩ := ih attrs' _ mid hnumbered hrest
          refine ⟨later, count, hlast, ?_⟩
          rw [hlater, hdraws, attrDraws, List.append_assoc]
      | draw =>
          obtain rfl := Option.some.inj hmid
          have hdrawn : Numbered attrs s.numChrs (n + 1)
              { s with nextSeq := (nextEvtSeq s.nextSeq).2 } :=
            ⟨by rw [h.nextSeq, nextEvtSeq_evtSeq], h.args, h.nodup, h.chrs, h.dscs⟩
          obtain ⟨later, count, hlast, hlater⟩ := ih attrs (n + 1) _ hdrawn hrest
          exact ⟨later, count, hlast, hlater⟩

theorem numbered_initial : Numbered [] State.initial.numChrs 0 State.initial where
  nextSeq := rfl
  args a seq := by
    cases a <;> simp [State.attrArg, State.initial, State.zeroed, ChrDef.zero, DscDef.zero]
  nodup := List.nodup_nil
  chrs _ _ := rfl
  dscs _ _ := rfl

-- Two attributes share a number when their calls are a multiple of the period
-- apart.
theorem Numbered.pairwise_iff {attrs : List (Attr × Nat)} {chrs n : Nat} {s : State}
    (h : Numbered attrs chrs n s) : Identifies s ↔
      (attrs.map Prod.snd).Pairwise fun i j => i % EVT_SEQ_PERIOD ≠ j % EVT_SEQ_PERIOD := by
  have hslots := h.nodup
  rw [List.Nodup, List.pairwise_map] at hslots
  rw [List.pairwise_map]
  constructor
  · intro hidentifies
    refine hslots.imp_of_mem ?_
    intro x y hx hy hslot hsame
    apply hslot
    apply hidentifies x.1 y.1 (evtSeq x.2)
    · exact (h.args _ _).mpr ⟨x.2, hx, rfl⟩
    · exact (h.args _ _).mpr ⟨y.2, hy, (evtSeq_inj _ _).mpr hsame⟩
  · intro hapart a b seq ha hb
    obtain ⟨i, hi, hseqi⟩ := (h.args a seq).mp ha
    obtain ⟨j, hj, hseqj⟩ := (h.args b seq).mp hb
    by_contra hne
    have hsame : i % EVT_SEQ_PERIOD = j % EVT_SEQ_PERIOD :=
      (evtSeq_inj i j).mp (hseqi.symm.trans hseqj)
    have hpair : (a, i) ≠ (b, j) := fun he => hne (congrArg Prod.fst he)
    have hsymm : Std.Symm fun x y : Attr × Nat => x.2 % EVT_SEQ_PERIOD ≠ y.2 % EVT_SEQ_PERIOD :=
      ⟨fun _ _ h => h.symm⟩
    exact hapart.forall hi hj hpair hsame

theorem identifies_iff (events : List TableEvent) (s : State)
    (hrun : Transition.run State.step State.initial events = some s) :
    Identifies s ↔
      (attrDraws 0 events).Pairwise fun i j => i % EVT_SEQ_PERIOD ≠ j % EVT_SEQ_PERIOD := by
  obtain ⟨attrs, _, hnumbered, hdraws⟩ := run_numbered events [] 0 _ s numbered_initial hrun
  rw [hnumbered.pairwise_iff, hdraws]
  rfl

-- A service with one characteristic that has no descriptors.
def smallSvc (uuid : UInt16) : Svc :=
  ⟨.primary, .u16 uuid, [⟨.u16 uuid, 2, 0, []⟩]⟩

def twoSvcs (draws : Nat) : List TableEvent :=
  .add [smallSvc 0x180f] :: List.replicate draws .draw ++ [.add [smallSvc 0x180d]]

theorem run_draws (draws : Nat) (s : State) (rest : List TableEvent) :
    ∃ seq, Transition.run State.step s (List.replicate draws .draw ++ rest) =
      Transition.run State.step { s with nextSeq := seq } rest := by
  induction draws generalizing s with
  | zero => exact ⟨s.nextSeq, rfl⟩
  | succ draws ih =>
      obtain ⟨seq, hseq⟩ := ih { s with nextSeq := (nextEvtSeq s.nextSeq).2 }
      exact ⟨seq, hseq⟩

theorem twoSvcs_run (draws : Nat) : ∃ s,
    Transition.run State.step State.initial (twoSvcs draws) = some s := by
  have hfirst : ∃ mid, addSvcs [smallSvc 0x180f] State.initial = .ok (0, mid) ∧
      ∀ seq, ∃ s, addSvcs [smallSvc 0x180d] { mid with nextSeq := seq } = .ok (0, s) :=
    ⟨_, rfl, fun seq => ⟨_, rfl⟩⟩
  obtain ⟨mid, hmid, hsecond⟩ := hfirst
  obtain ⟨seq, hseq⟩ := run_draws draws mid [.add [smallSvc 0x180d]]
  obtain ⟨s, hs⟩ := hsecond seq
  refine ⟨s, ?_⟩
  rw [twoSvcs, List.cons_append, Transition.run, (State.step_add _ _ _).mpr hmid, Option.bind_some,
    hseq, Transition.run, (State.step_add _ _ _).mpr hs]
  rfl

theorem twoSvcs_draws (draws : Nat) : attrDraws 0 (twoSvcs draws) = [0, draws + 1] := by
  have hskip : ∀ n, attrDraws n (List.replicate draws .draw ++ [.add [smallSvc 0x180d]]) =
      [n + draws] := by
    induction draws with
    | zero => exact fun n => rfl
    | succ draws ih =>
        intro n
        rw [List.replicate_succ, List.cons_append, attrDraws, ih, Nat.add_right_comm]
        rfl
  rw [twoSvcs, List.cons_append, attrDraws, hskip, Nat.add_comm draws]
  rfl

theorem identifies_near : ∃ s,
    Transition.run State.step State.initial (twoSvcs 3) = some s ∧ Identifies s := by
  obtain ⟨s, hs⟩ := twoSvcs_run 3
  refine ⟨s, hs, (identifies_iff (twoSvcs 3) s hs).mpr ?_⟩
  rw [twoSvcs_draws]
  decide

-- With 240 events in between the counter is back where it was.
theorem attributes_share_seq : ∃ s,
    Transition.run State.step State.initial (twoSvcs 240) = some s ∧ ¬Identifies s := by
  obtain ⟨s, hs⟩ := twoSvcs_run 240
  refine ⟨s, hs, ?_⟩
  obtain ⟨attrs, _, hnumbered, hdraws⟩ := run_numbered _ [] 0 _ s numbered_initial hs
  rw [hnumbered.pairwise_iff, hdraws, twoSvcs_draws]
  decide

end Blehostd.Gatts
