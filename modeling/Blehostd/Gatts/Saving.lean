import Blehostd.Gatts.Layout

namespace Blehostd.Gatts

-- Each characteristic and each descriptor draws one number.
def chrDraws : List Chr → Nat
  | [] => 0
  | chr :: rest => 1 + chr.dscs.length + chrDraws rest

def svcDraws : List Svc → Nat
  | [] => 0
  | svc :: rest => chrDraws svc.chrs + svcDraws rest

-- What the writes of an add_svcs request keep, with the count of the numbers
-- that it has drawn: `outer` between two characteristics, and `inner` from the
-- record of a characteristic to the end of its descriptors.
structure Saving (outer inner : Nat → State → Prop) : Prop where
  putSvc : ∀ svc n s, outer n s → outer n (s.putSvc svc)
  putChr : ∀ chr n s, outer n s → inner (n + 1) (s.putChr chr)
  putDsc : ∀ dsc n s, inner n s → inner (n + 1) (s.putDsc dsc)
  endDscs : ∀ n s, inner n s → inner n s.endDscs
  endChr : ∀ n s, inner n s → outer n s.endChrs
  endChrs : ∀ n s, outer n s → outer n s.endChrs
  endSvcs : ∀ n s, outer n s → outer n s.endSvcs

namespace Saving

variable {outer inner : Nat → State → Prop}

theorem dscs (h : Saving outer inner) (dscs : List Dsc) (n : Nat) (s s' : State)
    (hs : inner n s) (hsave : dscs.foldlM (fun s dsc => saveDsc dsc s) s = .ok s') :
    inner (n + dscs.length) s' := by
  induction dscs generalizing n s with
  | nil =>
      cases hsave
      exact hs
  | cons dsc rest ih =>
      obtain ⟨mid, hmid, hrest⟩ := (foldlM_cons_ok _ _ _ _ _).mp hsave
      obtain ⟨-, -, rfl⟩ := (saveDsc_ok _ _ _).mp hmid
      have hlast := ih (n + 1) _ (h.putDsc dsc n s hs) hrest
      rwa [Nat.add_right_comm] at hlast

theorem chr (h : Saving outer inner) (chr : Chr) (n : Nat) (s s' : State) (hs : outer n s)
    (hsave : saveChr chr s = .ok s') : outer (n + (1 + chr.dscs.length)) s' := by
  obtain ⟨-, -, -, mid, hmid, rfl⟩ := (saveChr_ok chr s s').mp hsave
  have hput := h.putChr chr n s hs
  rw [← Nat.add_assoc]
  apply h.endChr
  rcases saveDscs_cases chr.dscs _ mid hmid with ⟨-, last, hlast, -, rfl⟩ | ⟨hnil, rfl⟩
  · exact h.endDscs _ _ (h.dscs chr.dscs (n + 1) _ _ hput hlast)
  · rw [hnil]
    exact hput

theorem chrs (h : Saving outer inner) (chrs : List Chr) (n : Nat) (s s' : State)
    (hs : outer n s) (hsave : chrs.foldlM (fun s chr => saveChr chr s) s = .ok s') :
    outer (n + chrDraws chrs) s' := by
  induction chrs generalizing n s with
  | nil =>
      cases hsave
      exact hs
  | cons chr rest ih =>
      obtain ⟨mid, hmid, hrest⟩ := (foldlM_cons_ok _ _ _ _ _).mp hsave
      rw [chrDraws, ← Nat.add_assoc]
      exact ih _ _ (h.chr chr n s mid hs hmid) hrest

theorem svc (h : Saving outer inner) (svc : Svc) (n : Nat) (s s' : State) (hs : outer n s)
    (hsave : saveSvc svc s = .ok s') : outer (n + chrDraws svc.chrs) s' := by
  obtain ⟨-, -, mid, hmid, rfl⟩ := (saveSvc_ok svc s s').mp hsave
  have hput := h.putSvc svc n s hs
  apply h.endSvcs
  rcases saveChrs_cases svc.chrs _ mid hmid with ⟨-, last, hlast, -, rfl⟩ | ⟨hnil, rfl⟩
  · exact h.endChrs _ _ (h.chrs svc.chrs n _ _ hput hlast)
  · rw [hnil]
    exact hput

theorem svcs (h : Saving outer inner) (svcs : List Svc) (n : Nat) (s s' : State)
    (hs : outer n s) (hsave : svcs.foldlM (fun s svc => saveSvc svc s) s = .ok s') :
    outer (n + svcDraws svcs) s' := by
  induction svcs generalizing n s with
  | nil =>
      cases hsave
      exact hs
  | cons svc rest ih =>
      obtain ⟨mid, hmid, hrest⟩ := (foldlM_cons_ok _ _ _ _ _).mp hsave
      rw [svcDraws, ← Nat.add_assoc]
      exact ih _ _ (h.svc svc n s mid hs hmid) hrest

theorem add (h : Saving outer inner) (svcs : List Svc) (s s' : State) (hs : outer 0 s)
    (hadd : addSvcs svcs s = .ok (0, s')) : outer (svcDraws svcs) s' := by
  obtain ⟨-, mid, hmid, -, rfl⟩ := (addSvcs_ok svcs s s').mp hadd
  have hlast := h.endSvcs _ _ (h.svcs svcs 0 s mid hs hmid)
  rwa [Nat.zero_add] at hlast

end Saving

end Blehostd.Gatts
