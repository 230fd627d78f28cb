import Mathlib.Data.List.Nodup
import Blehostd.Gatts.Saving
import Blehostd.Library.Transition

namespace Blehostd

-- bhd_next_evt_seq returns as many different numbers.
def EVT_SEQ_PERIOD : Nat := BHD_SEQ_MAX.toNat - BHD_SEQ_EVT_MIN.toNat + 1

-- The number that call n of it returns, counted from 0.
def evtSeq (n : Nat) : UInt32 :=
  UInt32.ofNat (BHD_SEQ_EVT_MIN.toNat + n % EVT_SEQ_PERIOD)

theorem evtSeq_step : ∀ k < EVT_SEQ_PERIOD,
    (nextEvtSeq (UInt32.ofNat (BHD_SEQ_EVT_MIN.toNat + k))).2 =
      UInt32.ofNat (BHD_SEQ_EVT_MIN.toNat + (k + 1) % EVT_SEQ_PERIOD) := by
  decide +kernel

theorem nextEvtSeq_evtSeq (n : Nat) : nextEvtSeq (evtSeq n) = (evtSeq n, evtSeq (n + 1)) := by
  have hstep := evtSeq_step (n % EVT_SEQ_PERIOD) (Nat.mod_lt n (by decide))
  have hnext : evtSeq (n + 1) = (nextEvtSeq (evtSeq n)).2 := by
    rw [evtSeq, evtSeq, hstep, Nat.mod_add_mod]
  rw [hnext]
  rfl

theorem evtSeq_toNat (n : Nat) :
    (evtSeq n).toNat = BHD_SEQ_EVT_MIN.toNat + n % EVT_SEQ_PERIOD := by
  have hmod : n % EVT_SEQ_PERIOD < 241 := Nat.mod_lt n (by decide)
  have hmin : BHD_SEQ_EVT_MIN.toNat = 0xffffff00 := rfl
  rw [evtSeq, UInt32.toNat_ofNat']
  omega

theorem evtSeq_inj (n m : Nat) :
    evtSeq n = evtSeq m ↔ n % EVT_SEQ_PERIOD = m % EVT_SEQ_PERIOD := by
  rw [← UInt32.toNat_inj, evtSeq_toNat, evtSeq_toNat]
  omega

-- The static next_seq before call n.
def evtCounter : Nat → UInt32
  | 0 => BHD_SEQ_EVT_MIN
  | n + 1 => (nextEvtSeq (evtCounter n)).2

def evtSeqOfCall (n : Nat) : UInt32 :=
  (nextEvtSeq (evtCounter n)).1

theorem evtCounter_eq (n : Nat) : evtCounter n = evtSeq n := by
  induction n with
  | zero => rfl
  | succ n ih => rw [evtCounter, ih, nextEvtSeq_evtSeq]

theorem evtSeqOfCall_eq (n : Nat) : evtSeqOfCall n = evtSeq n := by
  rw [evtSeqOfCall, evtCounter_eq, nextEvtSeq_evtSeq]

theorem evtSeq_range (n : Nat) :
    BHD_SEQ_EVT_MIN.toNat ≤ (evtSeq n).toNat ∧ (evtSeq n).toNat ≤ BHD_SEQ_MAX.toNat := by
  have hmod : n % EVT_SEQ_PERIOD < EVT_SEQ_PERIOD := Nat.mod_lt n (by decide)
  have hperiod : BHD_SEQ_EVT_MIN.toNat + EVT_SEQ_PERIOD = BHD_SEQ_MAX.toNat + 1 := rfl
  rw [evtSeq_toNat]
  omega

-- As many calls in a row as there are numbers give each of them once.
theorem evtSeq_window (n : Nat) :
    ((List.range' n EVT_SEQ_PERIOD).map evtSeq).Nodup ∧
      ∀ seq : UInt32, BHD_SEQ_EVT_MIN ≤ seq → seq ≤ BHD_SEQ_MAX →
        seq ∈ (List.range' n EVT_SEQ_PERIOD).map evtSeq := by
  have hperiod : EVT_SEQ_PERIOD = 241 := rfl
  constructor
  · refine List.Nodup.map_on ?_ List.nodup_range'
    intro k hk m hm hsame
    rw [evtSeq_inj, hperiod] at hsame
    rw [List.mem_range'_1, hperiod] at hk hm
    omega
  · intro seq hmin hmax
    have hlow : BHD_SEQ_EVT_MIN.toNat ≤ seq.toNat := hmin
    have hhigh : seq.toNat ≤ BHD_SEQ_MAX.toNat := hmax
    have hsum : BHD_SEQ_MAX.toNat = BHD_SEQ_EVT_MIN.toNat + 240 := rfl
    obtain ⟨d, hd⟩ := Nat.exists_eq_add_of_le hlow
    refine List.mem_map.mpr ⟨n + (d + 241 - n % 241) % 241, ?_, ?_⟩
    · rw [List.mem_range'_1, hperiod]
      omega
    · rw [← UInt32.toNat_inj, evtSeq_toNat, hperiod, hd]
      omega

theorem evtSeqs_cycle :
    (∀ n, BHD_SEQ_EVT_MIN ≤ evtSeqOfCall n ∧ evtSeqOfCall n ≤ BHD_SEQ_MAX) ∧
      (∀ n, (evtCounter n).toNat + 1 < 2 ^ 32) ∧
      (∀ k m, evtSeqOfCall k = evtSeqOfCall m ↔ k % EVT_SEQ_PERIOD = m % EVT_SEQ_PERIOD) ∧
      ∀ n, ((List.range' n EVT_SEQ_PERIOD).map evtSeqOfCall).Nodup ∧
        ∀ seq : UInt32, BHD_SEQ_EVT_MIN ≤ seq → seq ≤ BHD_SEQ_MAX →
          seq ∈ (List.range' n EVT_SEQ_PERIOD).map evtSeqOfCall := by
  have hcalls : evtSeqOfCall = evtSeq := funext evtSeqOfCall_eq
  rw [hcalls]
  refine ⟨evtSeq_range, ?_, evtSeq_inj, evtSeq_window⟩
  intro n
  have hmax : BHD_SEQ_MAX.toNat = 0xfffffff0 := rfl
  have hrange := (evtSeq_range n).2
  rw [evtCounter_eq]
  omega

namespace Gatts

-- An attribute that has an access callback: a slot of bhd_gatts_chrs or of
-- bhd_gatts_dscs.
inductive Attr where
  | chr (i : Nat)
  | dsc (i : Nat)
deriving DecidableEq, Repr

-- A slot without a UUID is free, or it ends a list.
def State.attrArg (s : State) : Attr → Option UInt32
  | .chr i => (s.chrs i).uuid.map fun _ => (s.chrs i).arg
  | .dsc i => (s.dscs i).uuid.map fun _ => (s.dscs i).arg

-- The number in an access event belongs to one attribute only.
def Identifies (s : State) : Prop :=
  ∀ a b seq, s.attrArg a = some seq → s.attrArg b = some seq → a = b

-- An add_svcs request with status 0, and any other call of bhd_next_evt_seq.
inductive TableEvent where
  | add (svcs : List Svc)
  | draw

def State.step (s : State) : TableEvent → Option State
  | .add svcs =>
      match addSvcs svcs s with
      | .ok (0, next) => some next
      | _ => none
  | .draw => some { s with nextSeq := (nextEvtSeq s.nextSeq).2 }

theorem State.step_add (s next : State) (svcs : List Svc) :
    s.step (.add svcs) = some next ↔ addSvcs svcs s = .ok (0, next) := by
  simp only [State.step]
  split
  · rename_i other hadd
    rw [hadd]
    simp
  · rename_i hrefused
    simp only [reduceCtorEq, false_iff]
    exact hrefused next

-- The calls of bhd_next_evt_seq for an attribute, in a run that begins with
-- call n.
def attrDraws : Nat → List TableEvent → List Nat
  | _, [] => []
  | n, .add svcs :: rest => List.range' n (svcDraws svcs) ++ attrDraws (n + svcDraws svcs) rest
  | n, .draw :: rest => attrDraws (n + 1) rest

-- The attributes in the tables with the calls that numbered them. `chrs` is the
-- first free slot for a characteristic.
structure Numbered (attrs : List (Attr × Nat)) (chrs n : Nat) (s : State) : Prop where
  nextSeq : s.nextSeq = evtSeq n
  args : ∀ a seq, s.attrArg a = some seq ↔ ∃ k, (a, k) ∈ attrs ∧ seq = evtSeq k
  nodup : (attrs.map Prod.fst).Nodup
  chrs : ∀ i, chrs ≤ i → (s.chrs i).uuid = none
  dscs : ∀ i, s.numDscs ≤ i → (s.dscs i).uuid = none

theorem Numbered.fresh {attrs : List (Attr × Nat)} {chrs n : Nat} {s : State}
    (h : Numbered attrs chrs n s) (a : Attr) (ha : s.attrArg a = none) :
    a ∉ attrs.map Prod.fst := by
  intro hmem
  obtain ⟨⟨_, k⟩, hentry, rfl⟩ := List.mem_map.mp hmem
  have harg := (h.args _ (evtSeq k)).mpr ⟨k, hentry, rfl⟩
  rw [ha] at harg
  cases harg

-- One more attribute, in a free slot, with the number of the counter.
theorem Numbered.put {attrs : List (Attr × Nat)} {chrs chrs' n : Nat} {s s' : State}
    (h : Numbered attrs chrs n s) (a : Attr) (hfree : s.attrArg a = none)
    (hnext : s'.nextSeq = succSeq s.nextSeq) (hput : s'.attrArg a = some s.nextSeq)
    (hother : ∀ b, b ≠ a → s'.attrArg b = s.attrArg b)
    (hchrs : ∀ i, chrs' ≤ i → (s'.chrs i).uuid = none)
    (hdscs : ∀ i, s'.numDscs ≤ i → (s'.dscs i).uuid = none) :
    Numbered (attrs ++ [(a, n)]) chrs' (n + 1) s' where
  nextSeq := by rw [hnext, h.nextSeq, succSeq, nextEvtSeq_evtSeq]
  args b seq := by
    by_cases hb : b = a
    · subst hb
      have hnew : ∀ k, (b, k) ∉ attrs := fun k hmem =>
        h.fresh b hfree (List.mem_map.mpr ⟨_, hmem, rfl⟩)
      rw [hput, h.nextSeq]
      simp [hnew, eq_comm]
    · rw [hother b hb, h.args b seq]
      simp [hb]
  nodup := by
    rw [List.map_append, List.map_singleton, List.nodup_append_comm]
    exact List.nodup_cons.mpr ⟨h.fresh a hfree, h.nodup⟩
  chrs := hchrs
  dscs := hdscs

end Gatts

end Blehostd
