import Blehostd.Gatts.Layout

namespace Blehostd.Gatts

structure Within (s : State) : Prop where
  numSvcs : s.numSvcs ≤ BHD_GATTS_MAX_SVCS
  numChrs : s.numChrs ≤ BHD_GATTS_MAX_CHRS
  numDscs : s.numDscs ≤ BHD_GATTS_MAX_DSCS
  numUuids : s.numUuids ≤ BHD_GATTS_MAX_UUIDS
  numValHandles : s.numValHandles ≤ BHD_GATTS_MAX_VAL_HANDLES

theorem foldlM_saveDsc_total (dscs : List Dsc) (s : State)
    (hd : s.numDscs + dscs.length ≤ BHD_GATTS_MAX_DSCS)
    (hu : s.numUuids + dscs.length ≤ BHD_GATTS_MAX_UUIDS) :
    ∃ s', dscs.foldlM (fun s dsc => saveDsc dsc s) s = .ok s' := by
  induction dscs generalizing s with
  | nil => exact ⟨s, rfl⟩
  | cons dsc rest ih =>
      rw [List.length_cons] at hd hu
      have hfirst : saveDsc dsc s = .ok (s.putDsc dsc) :=
        (saveDsc_ok _ _ _).mpr ⟨by omega, by omega, rfl⟩
      have hnumDscs : (s.putDsc dsc).numDscs = s.numDscs + 1 := rfl
      have hnumUuids : (s.putDsc dsc).numUuids = s.numUuids + 1 := rfl
      obtain ⟨s', hrest⟩ := ih (s.putDsc dsc) (by omega) (by omega)
      exact ⟨s', (foldlM_cons_ok _ _ _ _ _).mpr ⟨_, hfirst, hrest⟩⟩

theorem saveChr_total (chr : Chr) (s : State) (hc : s.numChrs < BHD_GATTS_MAX_CHRS)
    (hd : s.numDscs + dscSlots chr ≤ BHD_GATTS_MAX_DSCS)
    (hu : s.numUuids + (1 + chr.dscs.length) ≤ BHD_GATTS_MAX_UUIDS)
    (hv : s.numValHandles < BHD_GATTS_MAX_VAL_HANDLES) : ∃ s', saveChr chr s = .ok s' := by
  have hnumUuids : (s.putChr chr).numUuids = s.numUuids + 1 := rfl
  by_cases hlen : 0 < chr.dscs.length
  · have hslots : dscSlots chr = chr.dscs.length + 1 := if_pos hlen
    obtain ⟨mid, hmid⟩ := foldlM_saveDsc_total chr.dscs (s.putChr chr)
      (by show s.numDscs + _ ≤ _; omega) (by omega)
    have hnum : mid.numDscs = s.numDscs + chr.dscs.length := (foldlM_saveDsc _ _ _ hmid).numDscs
    refine ⟨_, (saveChr_ok _ _ _).mpr ⟨hc, by omega, hv, mid.endDscs, ?_, rfl⟩⟩
    rw [if_pos hlen]
    exact (saveDscs_ok _ _ _).mpr ⟨mid, hmid, by omega, rfl⟩
  · refine ⟨_, (saveChr_ok _ _ _).mpr ⟨hc, by omega, hv, s.putChr chr, ?_, rfl⟩⟩
    rw [if_neg hlen]

theorem foldlM_saveChr_total (chrs : List Chr) (s : State)
    (hc : s.numChrs + chrs.length ≤ BHD_GATTS_MAX_CHRS)
    (hd : s.numDscs + (chrs.map dscSlots).sum ≤ BHD_GATTS_MAX_DSCS)
    (hu : s.numUuids + (chrs.map fun chr => 1 + chr.dscs.length).sum ≤ BHD_GATTS_MAX_UUIDS)
    (hv : s.numValHandles + chrs.length ≤ BHD_GATTS_MAX_VAL_HANDLES) :
    ∃ s', chrs.foldlM (fun s chr => saveChr chr s) s = .ok s' := by
  induction chrs generalizing s with
  | nil => exact ⟨s, rfl⟩
  | cons chr rest ih =>
      simp only [List.length_cons, List.map_cons, List.sum_cons] at hc hd hu hv
      obtain ⟨mid, hmid⟩ := saveChr_total chr s (by omega) (by omega) (by omega) (by omega)
      have hsaved := saveChr_saved chr s mid hmid
      have hnumChrs : mid.numChrs = s.numChrs + 1 := hsaved.numChrs
      have hnumDscs : mid.numDscs = s.numDscs + dscSlots chr := by simpa using hsaved.numDscs
      have hnumUuids : mid.numUuids = s.numUuids + (1 + chr.dscs.length) := by
        simpa using hsaved.numUuids
      have hnumValHandles : mid.numValHandles = s.numValHandles + 1 := hsaved.numValHandles
      obtain ⟨s', hrest⟩ := ih mid (by omega) (by omega) (by omega) (by omega)
      exact ⟨s', (foldlM_cons_ok _ _ _ _ _).mpr ⟨mid, hmid, hrest⟩⟩

theorem saveSvc_total (svc : Svc) (s : State) (hs : s.numSvcs < BHD_GATTS_MAX_SVCS)
    (hc : s.numChrs + chrSlots svc ≤ BHD_GATTS_MAX_CHRS)
    (hd : s.numDscs + svcDscSlots svc ≤ BHD_GATTS_MAX_DSCS)
    (hu : s.numUuids + svcUuids svc ≤ BHD_GATTS_MAX_UUIDS)
    (hv : s.numValHandles + svc.chrs.length ≤ BHD_GATTS_MAX_VAL_HANDLES) :
    ∃ s', saveSvc svc s = .ok s' := by
  have hnumUuids : (s.putSvc svc).numUuids = s.numUuids + 1 := rfl
  unfold svcUuids at hu
  by_cases hlen : 0 < svc.chrs.length
  · have hslots : chrSlots svc = svc.chrs.length + 1 := if_pos hlen
    obtain ⟨mid, hmid⟩ := foldlM_saveChr_total svc.chrs (s.putSvc svc)
      (by show s.numChrs + _ ≤ _; omega) hd (by omega) hv
    have hnum : mid.numChrs = s.numChrs + svc.chrs.length := (foldlM_saveChr _ _ _ hmid).numChrs
    refine ⟨_, (saveSvc_ok _ _ _).mpr ⟨hs, by omega, mid.endChrs, ?_, rfl⟩⟩
    rw [if_pos hlen]
    exact (saveChrs_ok _ _ _).mpr ⟨mid, hmid, by omega, rfl⟩
  · refine ⟨_, (saveSvc_ok _ _ _).mpr ⟨hs, by omega, s.putSvc svc, ?_, rfl⟩⟩
    rw [if_neg hlen]

theorem foldlM_saveSvc_total (svcs : List Svc) (s : State)
    (hs : s.numSvcs + svcs.length ≤ BHD_GATTS_MAX_SVCS)
    (hc : s.numChrs + (svcs.map chrSlots).sum ≤ BHD_GATTS_MAX_CHRS)
    (hd : s.numDscs + (svcs.map svcDscSlots).sum ≤ BHD_GATTS_MAX_DSCS)
    (hu : s.numUuids + (svcs.map svcUuids).sum ≤ BHD_GATTS_MAX_UUIDS)
    (hv : s.numValHandles + (svcs.map (·.chrs.length)).sum ≤ BHD_GATTS_MAX_VAL_HANDLES) :
    ∃ s', svcs.foldlM (fun s svc => saveSvc svc s) s = .ok s' := by
  induction svcs generalizing s with
  | nil => exact ⟨s, rfl⟩
  | cons svc rest ih =>
      simp only [List.length_cons, List.map_cons, List.sum_cons] at hs hc hd hu hv
      obtain ⟨mid, hmid⟩ :=
        saveSvc_total svc s (by omega) (by omega) (by omega) (by omega) (by omega)
      obtain ⟨hsaved, _⟩ := saveSvc_saved svc s mid hmid
      have hnumSvcs : mid.numSvcs = s.numSvcs + 1 := hsaved.numSvcs
      have hnumChrs : mid.numChrs = s.numChrs + chrSlots svc := by simpa using hsaved.numChrs
      have hnumDscs : mid.numDscs = s.numDscs + svcDscSlots svc := by simpa using hsaved.numDscs
      have hnumUuids : mid.numUuids = s.numUuids + svcUuids svc := by simpa using hsaved.numUuids
      have hnumValHandles : mid.numValHandles = s.numValHandles + svc.chrs.length := by
        simpa using hsaved.numValHandles
      obtain ⟨s', hrest⟩ := ih mid (by omega) (by omega) (by omega) (by omega) (by omega)
      exact ⟨s', (foldlM_cons_ok _ _ _ _ _).mpr ⟨mid, hmid, hrest⟩⟩

-- The count is exact for services, descriptors and value handles, and is
-- enough for characteristics and UUIDs.
theorem foldl_cntDscs (chrs : List Chr) (numDscs : Nat) :
    chrs.foldl cntDscs numDscs = numDscs + (chrs.map dscSlots).sum := by
  induction chrs generalizing numDscs with
  | nil => rfl
  | cons chr rest ih =>
      rw [List.foldl_cons, ih, List.map_cons, List.sum_cons]
      by_cases hlen : 0 < chr.dscs.length
      · simp only [cntDscs, dscSlots, hlen, ite_true]
        omega
      · simp only [cntDscs, dscSlots, hlen, ite_false]
        omega

structure Counted (services : List Svc) (cnt cnt' : Resources) : Prop where
  svcs : cnt'.svcs = cnt.svcs
  chrs : cnt.chrs + (services.map chrSlots).sum ≤ cnt'.chrs
  dscs : cnt'.dscs = cnt.dscs + (services.map svcDscSlots).sum
  valHandles : cnt'.valHandles = cnt.valHandles + (services.map (·.chrs.length)).sum

theorem foldl_cntSvc (svcs : List Svc) (cnt : Resources) :
    Counted svcs cnt (svcs.foldl cntSvc cnt) := by
  induction svcs generalizing cnt with
  | nil => exact ⟨rfl, Nat.le_refl _, rfl, rfl⟩
  | cons svc rest ih =>
      obtain ⟨hsvcs, hchrs, hdscs, hvalHandles⟩ := ih (cntSvc cnt svc)
      have hslots : cnt.chrs + chrSlots svc ≤ (cntSvc cnt svc).chrs := by
        by_cases hlen : 0 < svc.chrs.length
        · have hall : 0 < cnt.chrs + svc.chrs.length := by omega
          simp only [cntSvc, chrSlots, hlen, hall, ite_true]
          omega
        · simp only [cntSvc, chrSlots, hlen, ite_false]
          split <;> omega
      have hcnt : (cntSvc cnt svc).dscs = cnt.dscs + svcDscSlots svc := foldl_cntDscs _ _
      have hhandles : (cntSvc cnt svc).valHandles = cnt.valHandles + svc.chrs.length := rfl
      refine ⟨hsvcs, ?_, ?_, ?_⟩
      · simp only [List.foldl_cons, List.map_cons, List.sum_cons]
        omega
      · simp only [List.foldl_cons, List.map_cons, List.sum_cons, hdscs, hcnt]
        omega
      · simp only [List.foldl_cons, List.map_cons, List.sum_cons, hvalHandles, hhandles]
        omega

theorem uuids_le_slots (svcs : List Svc) :
    (svcs.map svcUuids).sum ≤
      svcs.length + (svcs.map chrSlots).sum + (svcs.map svcDscSlots).sum := by
  have hchrs : ∀ chrs : List Chr, (chrs.map fun chr => 1 + chr.dscs.length).sum ≤
      chrs.length + (chrs.map dscSlots).sum := by
    intro chrs
    induction chrs with
    | nil => exact Nat.le_refl _
    | cons chr rest ih =>
        have hslots : chr.dscs.length ≤ dscSlots chr := by
          unfold dscSlots
          split <;> omega
        simp only [List.map_cons, List.sum_cons, List.length_cons]
        omega
  induction svcs with
  | nil => exact Nat.le_refl _
  | cons svc rest ih =>
      have hslots : svc.chrs.length ≤ chrSlots svc := by
        unfold chrSlots
        split <;> omega
      have huuids := hchrs svc.chrs
      simp only [List.map_cons, List.sum_cons, List.length_cons, svcUuids]
      unfold svcDscSlots at *
      omega

structure Fits (services : List Svc) (s : State) : Prop where
  svcs : s.numSvcs + (services.length + 1) ≤ BHD_GATTS_MAX_SVCS
  chrs : s.numChrs + (services.map chrSlots).sum ≤ BHD_GATTS_MAX_CHRS
  dscs : s.numDscs + (services.map svcDscSlots).sum ≤ BHD_GATTS_MAX_DSCS
  uuids : s.numUuids + (services.map svcUuids).sum ≤ BHD_GATTS_MAX_UUIDS
  valHandles :
    s.numValHandles + (services.map (·.chrs.length)).sum ≤ BHD_GATTS_MAX_VAL_HANDLES

theorem fits_of_verify (svcs : List Svc) (s : State) (h : verifyResourceCnt svcs s = 0) :
    Fits svcs s := by
  have hcounted := foldl_cntSvc svcs ⟨svcs.length + 1, 0, 0, 0, 0⟩
  have huuids := uuids_le_slots svcs
  have hsvcs : (cntResources svcs).svcs = svcs.length + 1 := hcounted.svcs
  have hchrs : 0 + (svcs.map chrSlots).sum ≤ (cntResources svcs).chrs := hcounted.chrs
  have hdscs : (cntResources svcs).dscs = 0 + (svcs.map svcDscSlots).sum := hcounted.dscs
  have hvalHandles : (cntResources svcs).valHandles = 0 + (svcs.map (·.chrs.length)).sum :=
    hcounted.valHandles
  have hsum : (cntResources svcs).uuids = (cntResources svcs).svcs + (cntResources svcs).chrs +
      (cntResources svcs).dscs := rfl
  have hENOMEM : BLE_HS_ENOMEM ≠ 0 := by decide
  dsimp only [verifyResourceCnt] at h
  split_ifs at h with h1 h2 h3 h4 h5 <;> try exact absurd h hENOMEM
  exact ⟨by omega, by omega, by omega, by omega, by omega⟩

theorem Fits.save {svcs : List Svc} {s : State} (h : Fits svcs s) :
    ∃ mid, svcs.foldlM (fun s svc => saveSvc svc s) s = .ok mid ∧
      mid.numSvcs < BHD_GATTS_MAX_SVCS := by
  have hsvcs := h.svcs
  obtain ⟨mid, hmid⟩ :=
    foldlM_saveSvc_total svcs s (by omega) h.chrs h.dscs h.uuids h.valHandles
  have hnum : mid.numSvcs = s.numSvcs + svcs.length := (foldlM_saveSvc _ _ _ hmid).numSvcs
  exact ⟨mid, hmid, by omega⟩

-- No assert fails and no slot outside of a table is used, whatever the request.
theorem addSvcs_total (svcs : List Svc) (s : State) :
    (verifyResourceCnt svcs s ≠ 0 ∧ addSvcs svcs s = .ok (verifyResourceCnt svcs s, s)) ∨
      ∃ s', addSvcs svcs s = .ok (0, s') := by
  by_cases hrc : verifyResourceCnt svcs s = 0
  · obtain ⟨mid, hmid, hroom⟩ := (fits_of_verify svcs s hrc).save
    exact Or.inr ⟨_, (addSvcs_ok _ _ _).mpr ⟨hrc, mid, hmid, hroom, rfl⟩⟩
  · left
    refine ⟨hrc, ?_⟩
    simp [addSvcs, hrc]

theorem addSvcs_within (svcs : List Svc) (s s' : State)
    (h : addSvcs svcs s = .ok (0, s')) : Within s' := by
  obtain ⟨hrc, mid, hmid, _, rfl⟩ := (addSvcs_ok svcs s s').mp h
  have hfits := fits_of_verify svcs s hrc
  have hsaved := foldlM_saveSvc _ _ _ hmid
  refine ⟨?_, ?_, ?_, ?_, ?_⟩
  · show mid.numSvcs + 1 ≤ _
    rw [hsaved.numSvcs]
    exact hfits.svcs
  · show mid.numChrs ≤ _
    rw [hsaved.numChrs]
    exact hfits.chrs
  · show mid.numDscs ≤ _
    rw [hsaved.numDscs]
    exact hfits.dscs
  · show mid.numUuids ≤ _
    rw [hsaved.numUuids]
    exact hfits.uuids
  · show mid.numValHandles ≤ _
    rw [hsaved.numValHandles]
    exact hfits.valHandles

theorem clearSvcs_within (reset : Int) (s : State) : Within (clearSvcs reset s).2 :=
  ⟨Nat.zero_le _, Nat.zero_le _, Nat.zero_le _, Nat.zero_le _, Nat.zero_le _⟩

end Blehostd.Gatts
