import Mathlib.Algebra.Order.BigOperators.Group.List
import Blehostd.Gatts.Registry.Theorems
import Blehostd.Library.Transition

namespace Blehostd.Gatts

-- The save functions on a whole request, as bhd_gatts_add_svcs runs them when
-- the check has passed.
def saveAll (svcs : List Svc) (s : State) : Except Fault State := do
  let s ← svcs.foldlM (fun s svc => saveSvc svc s) s
  require (s.numSvcs < BHD_GATTS_MAX_SVCS) .outOfBounds
  .ok { s with numSvcs := s.numSvcs + 1 }

theorem saveAll_ok (svcs : List Svc) (s s' : State) : saveAll svcs s = .ok s' ↔
    ∃ mid, svcs.foldlM (fun s svc => saveSvc svc s) s = .ok mid ∧
      mid.numSvcs < BHD_GATTS_MAX_SVCS ∧ s' = mid.endSvcs := by
  unfold saveAll
  simp only [bind_ok, require_ok, exists_const, Except.ok.injEq, State.endSvcs, @eq_comm _ s']

theorem addSvcs_saveAll (svcs : List Svc) (s s' : State) : addSvcs svcs s = .ok (0, s') ↔
    verifyResourceCnt svcs s = 0 ∧ saveAll svcs s = .ok s' := by
  rw [addSvcs_ok, saveAll_ok]

-- No save function leaves a counter beyond its table.
theorem saveDscs_within (chr : Chr) (s s' : State) (h : Within s)
    (hsave : (if 0 < chr.dscs.length then saveDscs chr.dscs s else .ok s) = .ok s') :
    Within s' := by
  rcases saveDscs_cases chr.dscs s s' hsave with ⟨_, mid, hmid, hroom, rfl⟩ | ⟨_, rfl⟩
  · have hdscs : Within mid := by
      refine Transition.foldlM_keeps (fun s dsc next hs hnext => ?_) s mid chr.dscs h hmid
      obtain ⟨hd, hu, rfl⟩ := (saveDsc_ok dsc s next).mp hnext
      exact ⟨hs.numSvcs, hs.numChrs, hd, hu, hs.numValHandles⟩
    exact ⟨hdscs.numSvcs, hdscs.numChrs, hroom, hdscs.numUuids, hdscs.numValHandles⟩
  · exact h

theorem saveChr_within (chr : Chr) (s s' : State) (h : Within s)
    (hsave : saveChr chr s = .ok s') : Within s' := by
  obtain ⟨hc, hu, hv, mid, hmid, rfl⟩ := (saveChr_ok chr s s').mp hsave
  have hput : Within (s.putChr chr) := ⟨h.numSvcs, h.numChrs, h.numDscs, hu, hv⟩
  have hdscs := saveDscs_within chr _ mid hput hmid
  have hnum : mid.numChrs = s.numChrs := (saveDscs_saved chr _ mid hmid).numChrs
  refine ⟨hdscs.numSvcs, ?_, hdscs.numDscs, hdscs.numUuids, hdscs.numValHandles⟩
  show mid.numChrs + 1 ≤ BHD_GATTS_MAX_CHRS
  omega

theorem saveSvc_within (svc : Svc) (s s' : State) (h : Within s)
    (hsave : saveSvc svc s = .ok s') : Within s' := by
  obtain ⟨hs, hu, mid, hmid, rfl⟩ := (saveSvc_ok svc s s').mp hsave
  have hput : Within (s.putSvc svc) := ⟨h.numSvcs, h.numChrs, h.numDscs, hu, h.numValHandles⟩
  have hnum : mid.numSvcs = s.numSvcs := (saveChrs_saved svc _ mid hmid).numSvcs
  have hchrs : Within mid := by
    rcases saveChrs_cases svc.chrs _ mid hmid with ⟨_, last, hlast, hroom, rfl⟩ | ⟨_, rfl⟩
    · have hall := Transition.foldlM_keeps
        (fun s chr next hs hnext => saveChr_within chr s next hs hnext) _ last svc.chrs hput hlast
      exact ⟨hall.numSvcs, hroom, hall.numDscs, hall.numUuids, hall.numValHandles⟩
    · exact hput
  refine ⟨?_, hchrs.numChrs, hchrs.numDscs, hchrs.numUuids, hchrs.numValHandles⟩
  show mid.numSvcs + 1 ≤ BHD_GATTS_MAX_SVCS
  omega

-- What the save functions add to the counters.
structure Took (svcs : List Svc) (s s' : State) : Prop where
  numSvcs : s'.numSvcs = s.numSvcs + (svcs.length + 1)
  numChrs : s'.numChrs = s.numChrs + (svcs.map chrSlots).sum
  numDscs : s'.numDscs = s.numDscs + (svcs.map svcDscSlots).sum
  numUuids : s'.numUuids = s.numUuids + (svcs.map svcUuids).sum
  numValHandles : s'.numValHandles = s.numValHandles + (svcs.map (·.chrs.length)).sum

theorem saveAll_took (svcs : List Svc) (s s' : State) (h : saveAll svcs s = .ok s') :
    Took svcs s s' := by
  obtain ⟨mid, hmid, -, rfl⟩ := (saveAll_ok svcs s s').mp h
  have hsaved := foldlM_saveSvc svcs s mid hmid
  exact ⟨congrArg Nat.succ hsaved.numSvcs, hsaved.numChrs, hsaved.numDscs, hsaved.numUuids,
    hsaved.numValHandles⟩

theorem saveAll_within (svcs : List Svc) (s s' : State) (h : Within s)
    (hsave : saveAll svcs s = .ok s') : Within s' := by
  obtain ⟨mid, hmid, hroom, rfl⟩ := (saveAll_ok svcs s s').mp hsave
  have hall := Transition.foldlM_keeps
    (fun s svc next hs hnext => saveSvc_within svc s next hs hnext) s mid svcs h hmid
  exact ⟨hroom, hall.numChrs, hall.numDscs, hall.numUuids, hall.numValHandles⟩

-- The save functions run through exactly when no table is taken beyond its end.
theorem saveAll_iff_fits (svcs : List Svc) (s : State) (h : Within s) :
    (∃ s', saveAll svcs s = .ok s') ↔ Fits svcs s := by
  constructor
  · rintro ⟨s', hsave⟩
    have htook := saveAll_took svcs s s' hsave
    have hwithin := saveAll_within svcs s s' h hsave
    exact ⟨htook.numSvcs ▸ hwithin.numSvcs, htook.numChrs ▸ hwithin.numChrs,
      htook.numDscs ▸ hwithin.numDscs, htook.numUuids ▸ hwithin.numUuids,
      htook.numValHandles ▸ hwithin.numValHandles⟩
  · intro hfits
    obtain ⟨mid, hmid, hroom⟩ := hfits.save
    exact ⟨_, (saveAll_ok _ _ _).mpr ⟨mid, hmid, hroom, rfl⟩⟩

-- The services without characteristics, and those of them behind the first
-- service that has some.
def bareSvcs (svcs : List Svc) : Nat :=
  svcs.countP fun svc => svc.chrs = []

def lateBareSvcs (svcs : List Svc) : Nat :=
  bareSvcs (svcs.dropWhile fun svc => svc.chrs = [])

theorem chrSlots_bare {svc : Svc} (h : svc.chrs = []) : chrSlots svc = 0 := by
  simp [chrSlots, h]

theorem cntSvc_bare (cnt : Resources) {svc : Svc} (h : svc.chrs = []) :
    (cntSvc cnt svc).chrs = cnt.chrs + if 0 < cnt.chrs then 1 else 0 := by
  simp only [cntSvc, h, List.length_nil, Nat.add_zero]
  split <;> omega

theorem cntSvc_full (cnt : Resources) {svc : Svc} (h : svc.chrs ≠ []) :
    (cntSvc cnt svc).chrs = cnt.chrs + chrSlots svc ∧ 0 < chrSlots svc := by
  have hlen : 0 < svc.chrs.length := List.length_pos_iff.mpr h
  have hall : 0 < cnt.chrs + svc.chrs.length := by omega
  have hslots : chrSlots svc = svc.chrs.length + 1 := if_pos hlen
  simp only [cntSvc, hall, if_true, hslots]
  omega

-- Once a characteristic is counted, every service counts a terminator.
theorem foldl_cntSvc_started (svcs : List Svc) (cnt : Resources) (h : 0 < cnt.chrs) :
    (svcs.foldl cntSvc cnt).chrs = cnt.chrs + (svcs.map chrSlots).sum + bareSvcs svcs := by
  induction svcs generalizing cnt with
  | nil => rfl
  | cons svc rest ih =>
      rw [List.foldl_cons, List.map_cons, List.sum_cons]
      by_cases hbare : svc.chrs = []
      · have hcnt := cntSvc_bare cnt hbare
        rw [if_pos h] at hcnt
        have hmore : bareSvcs (svc :: rest) = bareSvcs rest + 1 := by simp [bareSvcs, hbare]
        rw [ih _ (by omega), hcnt, chrSlots_bare hbare, hmore]
        omega
      · obtain ⟨hcnt, -⟩ := cntSvc_full cnt hbare
        have hsame : bareSvcs (svc :: rest) = bareSvcs rest := by simp [bareSvcs, hbare]
        rw [ih _ (by omega), hcnt, hsame]
        omega

theorem foldl_cntSvc_zero (svcs : List Svc) (cnt : Resources) (h : cnt.chrs = 0) :
    (svcs.foldl cntSvc cnt).chrs = (svcs.map chrSlots).sum + lateBareSvcs svcs := by
  induction svcs generalizing cnt with
  | nil => exact h
  | cons svc rest ih =>
      rw [List.foldl_cons, List.map_cons, List.sum_cons]
      by_cases hbare : svc.chrs = []
      · have hcnt : (cntSvc cnt svc).chrs = 0 := by
          rw [cntSvc_bare cnt hbare, h]
          rfl
        have hsame : lateBareSvcs (svc :: rest) = lateBareSvcs rest := by
          simp [lateBareSvcs, hbare]
        rw [ih _ hcnt, chrSlots_bare hbare, hsame, Nat.zero_add]
      · obtain ⟨hcnt, hpos⟩ := cntSvc_full cnt hbare
        have hlate : lateBareSvcs (svc :: rest) = bareSvcs rest := by
          simp [lateBareSvcs, bareSvcs, hbare]
        rw [foldl_cntSvc_started rest _ (by omega), hcnt, hlate, h, Nat.zero_add]

theorem valHandles_le_slots (svcs : List Svc) :
    (svcs.map (·.chrs.length)).sum ≤ (svcs.map chrSlots).sum := by
  apply List.sum_le_sum
  intro svc _
  unfold chrSlots
  split <;> omega

-- The tables of uuids and of value handles are as large as what refers to them.
structure Frugal (s : State) : Prop where
  within : Within s
  numUuids : s.numUuids ≤ s.numSvcs + s.numChrs + s.numDscs
  numValHandles : s.numValHandles ≤ s.numChrs

theorem Frugal.saveAll {svcs : List Svc} {s s' : State} (h : Frugal s)
    (hsave : saveAll svcs s = .ok s') : Frugal s' := by
  have htook := saveAll_took svcs s s' hsave
  have huuids := uuids_le_slots svcs
  have hvalHandles := valHandles_le_slots svcs
  have hbefore := h.numUuids
  have hhandles := h.numValHandles
  refine ⟨saveAll_within svcs s s' h.within hsave, ?_, ?_⟩
  · rw [htook.numUuids, htook.numSvcs, htook.numChrs, htook.numDscs]
    omega
  · rw [htook.numValHandles, htook.numChrs]
    omega

-- So the last two tables never run out first.
theorem Frugal.fits_iff {s : State} (h : Frugal s) (svcs : List Svc) : Fits svcs s ↔
    s.numSvcs + (svcs.length + 1) ≤ BHD_GATTS_MAX_SVCS ∧
      s.numChrs + (svcs.map chrSlots).sum ≤ BHD_GATTS_MAX_CHRS ∧
      s.numDscs + (svcs.map svcDscSlots).sum ≤ BHD_GATTS_MAX_DSCS := by
  constructor
  · intro hfits
    exact ⟨hfits.svcs, hfits.chrs, hfits.dscs⟩
  · rintro ⟨hsvcs, hchrs, hdscs⟩
    have huuids := uuids_le_slots svcs
    have hvalHandles := valHandles_le_slots svcs
    have hbefore := h.numUuids
    have hhandles := h.numValHandles
    have hmax : BHD_GATTS_MAX_UUIDS =
        BHD_GATTS_MAX_SVCS + BHD_GATTS_MAX_CHRS + BHD_GATTS_MAX_DSCS := rfl
    have hsame : BHD_GATTS_MAX_VAL_HANDLES = BHD_GATTS_MAX_CHRS := rfl
    exact ⟨hsvcs, hchrs, hdscs, by omega, by omega⟩

theorem Frugal.refused_iff {s : State} (h : Frugal s) (svcs : List Svc) :
    verifyResourceCnt svcs s = BLE_HS_ENOMEM ↔
      ¬(Fits svcs s ∧
        s.numChrs + (svcs.map chrSlots).sum + lateBareSvcs svcs ≤ BHD_GATTS_MAX_CHRS) := by
  have hcounted := foldl_cntSvc svcs ⟨svcs.length + 1, 0, 0, 0, 0⟩
  have hsvcs : (cntResources svcs).svcs = svcs.length + 1 := hcounted.svcs
  have hchrs : (cntResources svcs).chrs = (svcs.map chrSlots).sum + lateBareSvcs svcs :=
    foldl_cntSvc_zero svcs _ rfl
  have hdscs : (cntResources svcs).dscs = 0 + (svcs.map svcDscSlots).sum := hcounted.dscs
  have hvalHandles : (cntResources svcs).valHandles = 0 + (svcs.map (·.chrs.length)).sum :=
    hcounted.valHandles
  have huuids : (cntResources svcs).uuids = (cntResources svcs).svcs + (cntResources svcs).chrs +
      (cntResources svcs).dscs := rfl
  have hless := valHandles_le_slots svcs
  have hbefore := h.numUuids
  have hhandles := h.numValHandles
  have hmax : BHD_GATTS_MAX_UUIDS =
      BHD_GATTS_MAX_SVCS + BHD_GATTS_MAX_CHRS + BHD_GATTS_MAX_DSCS := rfl
  have hsame : BHD_GATTS_MAX_VAL_HANDLES = BHD_GATTS_MAX_CHRS := rfl
  have hENOMEM : ¬0 = BLE_HS_ENOMEM := by decide
  rw [h.fits_iff]
  dsimp only [verifyResourceCnt]
  split_ifs with h1 h2 h3 h4 h5
  · exact iff_of_true rfl (by omega)
  · exact iff_of_true rfl (by omega)
  · exact iff_of_true rfl (by omega)
  · omega
  · omega
  · exact iff_of_false hENOMEM (by omega)

theorem verifyResourceCnt_cases (svcs : List Svc) (s : State) :
    verifyResourceCnt svcs s = 0 ∨ verifyResourceCnt svcs s = BLE_HS_ENOMEM := by
  dsimp only [verifyResourceCnt]
  split_ifs <;> simp

theorem Frugal.accepted {s : State} (h : Frugal s) {svcs : List Svc} (hfits : Fits svcs s)
    (hlate : s.numChrs + (svcs.map chrSlots).sum + lateBareSvcs svcs ≤ BHD_GATTS_MAX_CHRS) :
    ∃ s', addSvcs svcs s = .ok (0, s') ∧ Gatts.saveAll svcs s = .ok s' := by
  obtain ⟨s', hsave⟩ := (saveAll_iff_fits svcs s h.within).mpr hfits
  rcases verifyResourceCnt_cases svcs s with hpassed | hrefused
  · exact ⟨s', (addSvcs_saveAll svcs s s').mpr ⟨hpassed, hsave⟩, hsave⟩
  · exact absurd ⟨hfits, hlate⟩ ((h.refused_iff svcs).mp hrefused)

-- A request that the check refuses would not have fitted, unless its
-- terminators were counted that are not there.
theorem Frugal.refusal_iff {s : State} (h : Frugal s) (svcs : List Svc) :
    (verifyResourceCnt svcs s = BLE_HS_ENOMEM → ∃ fault, Gatts.saveAll svcs s = .error fault) ↔
      (Fits svcs s →
        s.numChrs + (svcs.map chrSlots).sum + lateBareSvcs svcs ≤ BHD_GATTS_MAX_CHRS) := by
  have hfails : (∃ fault, Gatts.saveAll svcs s = .error fault) ↔ ¬Fits svcs s := by
    rw [← saveAll_iff_fits svcs s h.within]
    cases Gatts.saveAll svcs s <;> simp
  rw [h.refused_iff, hfails]
  tauto

-- The host's calls leave the tables alone, but for the value handles.
theorem commitSvcs_tables (env : CommitEnv) (s s' : State) (rsp : CommitRsp)
    (h : commitSvcs env s = .ok (rsp, s')) :
    s' = s ∨ s' = { s with valHandles := env.valHandles } := by
  unfold commitSvcs at h
  dsimp only at h
  split_ifs at h with hcount hadd hstart halloc
  · exact Or.inl (Prod.mk.inj (Except.ok.inj h)).2.symm
  · exact Or.inl (Prod.mk.inj (Except.ok.inj h)).2.symm
  · exact Or.inr (Prod.mk.inj (Except.ok.inj h)).2.symm
  · exact Or.inr (Prod.mk.inj (Except.ok.inj h)).2.symm
  · have hpos : 0 < s.numSvcs := by omega
    obtain ⟨svcs, -, hresult⟩ :=
      (commitListing_iff env { s with valHandles := env.valHandles } hpos _).mp h
    exact Or.inr (Prod.mk.inj hresult).2

namespace Registry

-- All that a request does to the tables.
theorem step_tables (r next : Registry) (request : Request) (status : Int)
    (h : r.step request = .ok (status, next)) :
    next.tables = r.tables ∨
      (∃ svcs, request = .add svcs ∧ saveAll svcs r.tables = .ok next.tables) ∨
      (∃ reset, request = .clear reset ∧ next.tables = (clearSvcs reset r.tables).2) ∨
      ∃ valHandles, next.tables = { r.tables with valHandles := valHandles } := by
  cases request with
  | add svcs =>
      simp only [step, bind_ok, Except.ok.injEq, Prod.mk.injEq, Prod.exists] at h
      obtain ⟨rc, tables, hadd, rfl, rfl⟩ := h
      rcases addSvcs_total svcs r.tables with ⟨-, hrefused⟩ | ⟨s', hsaved⟩
      · rw [hrefused] at hadd
        exact Or.inl (Prod.mk.inj (Except.ok.inj hadd)).2.symm
      · have hsame := hadd.symm.trans hsaved
        obtain ⟨-, rfl⟩ := Prod.mk.inj (Except.ok.inj hsame)
        have hall := ((addSvcs_saveAll svcs r.tables tables).mp hsaved).2
        exact Or.inr (Or.inl ⟨svcs, rfl, hall⟩)
  | clear reset =>
      obtain ⟨-, rfl⟩ := Prod.mk.inj (Except.ok.inj h)
      exact Or.inr (Or.inr (Or.inl ⟨reset, rfl, rfl⟩))
  | commit env =>
      simp only [step, bind_ok, Except.ok.injEq, Prod.mk.injEq, Prod.exists] at h
      obtain ⟨rsp, tables, hcommit, -, rfl⟩ := h
      rcases commitSvcs_tables env r.tables tables rsp hcommit with hsame | hhandles
      · exact Or.inl hsame
      · exact Or.inr (Or.inr (Or.inr ⟨env.valHandles, hhandles⟩))

theorem step_frugal (r next : Registry) (request : Request) (status : Int)
    (hr : Frugal r.tables) (h : r.step request = .ok (status, next)) : Frugal next.tables := by
  rcases step_tables r next request status h with
    hsame | ⟨svcs, -, hsave⟩ | ⟨reset, -, hclear⟩ | ⟨valHandles, hhandles⟩
  · rw [hsame]
    exact hr
  · exact hr.saveAll hsave
  · rw [hclear]
    exact ⟨clearSvcs_within reset r.tables, Nat.zero_le _, Nat.zero_le _⟩
  · rw [hhandles]
    obtain ⟨hsvcs, hchrs, hdscs, huuids, hslots⟩ := hr.within
    exact ⟨⟨hsvcs, hchrs, hdscs, huuids, hslots⟩, hr.numUuids, hr.numValHandles⟩

theorem run_frugal (requests : List Request) (r : Registry)
    (h : initial.run requests = .ok r) : Frugal r.tables := by
  refine Transition.foldlM_keeps (I := fun r => Frugal r.tables) ?_ initial r requests ?_ h
  · intro mid request next hmid hstep
    cases hresult : mid.step request with
    | error fault =>
        rw [hresult] at hstep
        cases hstep
    | ok result =>
        rw [hresult] at hstep
        obtain rfl := Except.ok.inj hstep
        exact step_frugal mid result.2 request result.1 hmid hresult
  · exact ⟨within_zeroed _, Nat.zero_le _, Nat.zero_le _⟩

theorem refused_exceeds_iff (requests : List Request) (r : Registry) (svcs : List Svc)
    (h : initial.run requests = .ok r) :
    (verifyResourceCnt svcs r.tables = BLE_HS_ENOMEM →
        ∃ fault, saveAll svcs r.tables = .error fault) ↔
      (Fits svcs r.tables → r.tables.numChrs + (svcs.map chrSlots).sum + lateBareSvcs svcs ≤
        BHD_GATTS_MAX_CHRS) :=
  (run_frugal requests r h).refusal_iff svcs

theorem refused_exceeds_iff_battery : ∃ r, initial.run [.add [battery]] = .ok r ∧
    ((verifyResourceCnt [battery] r.tables = BLE_HS_ENOMEM →
        ∃ fault, saveAll [battery] r.tables = .error fault) ↔
      (Fits [battery] r.tables →
        r.tables.numChrs + ([battery].map chrSlots).sum + lateBareSvcs [battery] ≤
          BHD_GATTS_MAX_CHRS)) := by
  have hrun : ∃ r, initial.run [.add [battery]] = .ok r := ⟨_, rfl⟩
  obtain ⟨r, hr⟩ := hrun
  exact ⟨r, hr, refused_exceeds_iff _ r [battery] hr⟩

-- A service that takes a third of the table of characteristics, but for two
-- slots of the whole table.
def large : Svc :=
  ⟨.primary, .u16 0x1812, List.replicate 169 ⟨.u16 0x2a4d, 2, 0, []⟩⟩

theorem add_large (s : State) (h : Frugal s) (hsvcs : s.numSvcs + 2 ≤ BHD_GATTS_MAX_SVCS)
    (hchrs : s.numChrs + 170 ≤ BHD_GATTS_MAX_CHRS) : ∃ s', addSvcs [large] s = .ok (0, s') ∧
      Frugal s' ∧ s'.numSvcs = s.numSvcs + 2 ∧ s'.numChrs = s.numChrs + 170 ∧
      s'.numDscs = s.numDscs := by
  have hslots : ([large].map chrSlots).sum = 170 := by decide +kernel
  have hdscs : ([large].map svcDscSlots).sum = 0 := by decide +kernel
  have hlate : lateBareSvcs [large] = 0 := by decide +kernel
  have hmax := h.within.numDscs
  have hfits : Fits [large] s := (h.fits_iff [large]).mpr ⟨hsvcs, by omega, by omega⟩
  obtain ⟨s', hadd, hsave⟩ := h.accepted hfits (by omega)
  have htook := saveAll_took [large] s s' hsave
  have hnumChrs := htook.numChrs
  have hnumDscs := htook.numDscs
  exact ⟨s', hadd, h.saveAll hsave, htook.numSvcs, by omega, by omega⟩

theorem run_large : ∃ r, initial.run [.add [large], .add [large], .add [large]] = .ok r ∧
    Frugal r.tables ∧ r.tables.numSvcs = 6 ∧ r.tables.numChrs = 510 ∧ r.tables.numDscs = 0 := by
  have hempty : Frugal State.initial := run_frugal [] initial rfl
  obtain ⟨s₁, hadd₁, h₁, hsvcs₁, hchrs₁, hdscs₁⟩ :=
    add_large State.initial hempty (by decide) (by decide)
  have hsvcs₁ : s₁.numSvcs = 2 := hsvcs₁
  have hchrs₁ : s₁.numChrs = 170 := hchrs₁
  have hdscs₁ : s₁.numDscs = 0 := hdscs₁
  obtain ⟨s₂, hadd₂, h₂, hsvcs₂, hchrs₂, hdscs₂⟩ :=
    add_large s₁ h₁ (by rw [hsvcs₁]; decide) (by rw [hchrs₁]; decide)
  obtain ⟨s₃, hadd₃, h₃, hsvcs₃, hchrs₃, hdscs₃⟩ :=
    add_large s₂ h₂ (by rw [hsvcs₂, hsvcs₁]; decide) (by rw [hchrs₂, hchrs₁]; decide)
  have hsvcs₃ : s₃.numSvcs = 6 := by omega
  have hchrs₃ : s₃.numChrs = 510 := by omega
  have hdscs₃ : s₃.numDscs = 0 := by omega
  refine ⟨{ initial with tables := s₃ }, ?_, h₃, hsvcs₃, hchrs₃, hdscs₃⟩
  rw [run_cons_add initial _ _ 0 s₁ hadd₁, run_cons_add _ _ _ 0 s₂ hadd₂,
    run_add _ _ 0 s₃ hadd₃]

-- Two slots are left, which the first service takes. The second one needs none,
-- but a third slot is counted for it.
theorem late_bare_refused : ∃ r,
    initial.run [.add [large], .add [large], .add [large]] = .ok r ∧
    verifyResourceCnt [battery, emptySvc 0x180d] r.tables = BLE_HS_ENOMEM ∧
    ∃ s', saveAll [battery, emptySvc 0x180d] r.tables = .ok s' := by
  obtain ⟨r, hr, hfrugal, hsvcs, hchrs, hdscs⟩ := run_large
  have hfits : Fits [battery, emptySvc 0x180d] r.tables := by
    rw [hfrugal.fits_iff, hsvcs, hchrs, hdscs]
    decide
  refine ⟨r, hr, (hfrugal.refused_iff _).mpr ?_, (saveAll_iff_fits _ _ hfrugal.within).mpr hfits⟩
  rintro ⟨-, hlate⟩
  rw [hchrs] at hlate
  exact absurd hlate (by decide)

end Registry

end Blehostd.Gatts
