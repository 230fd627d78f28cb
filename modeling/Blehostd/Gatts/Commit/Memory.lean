import Blehostd.Gatts.Commit.Failures
import Blehostd.Library.Ledger

namespace Blehostd.Gatts

-- The blocks of a commit_svcs response: the services, and the characteristics of service si.
inductive CommitBlock where
  | svcs
  | chrs (si : Nat)
deriving DecidableEq, Repr

-- The blocks of characteristics that the loop over the services obtains, and whether the loop
-- comes to its end.
def commitBlocks (env : CommitEnv) (s : State) :
    Nat → Nat → Except Fault (List CommitBlock × Bool)
  | 0, _ => .ok ([], true)
  | left + 1, si => do
      let svc ← commitSvc env s si
      match svc with
      | none => .ok ([], false)
      | some _ => do
          let (blocks, done) ← commitBlocks env s left (si + 1)
          .ok (.chrs si :: blocks, done)

-- The chrs member of slot si. The block of services comes from calloc, and behind it there is
-- no slot.
def slotChrs (numSvcs obtained si : Nat) : Ptr CommitBlock :=
  if si < obtained then .block (.chrs si)
  else if si < numSvcs - 1 then .null
  else .junk

-- bhd_commit_svcs_rsp_enc releases what the response has, which is nothing after a failure.
def releaseRsp (numSvcs obtained : Nat) : List (Ptr CommitBlock) :=
  (List.range (numSvcs - 1)).map (slotChrs numSvcs obtained) ++ [.block .svcs]

-- The error label of bhd_gatts_commit_svcs, which looks at bhd_gatts_num_svcs slots.
def releaseErr (numSvcs obtained : Nat) : List (Ptr CommitBlock) :=
  (List.range numSvcs).map (slotChrs numSvcs obtained) ++ [.block .svcs]

-- What a commit_svcs request obtains and releases from bhd_gatts_commit_svcs to the end of
-- bhd_commit_svcs_rsp_enc.
def commitLedger (env : CommitEnv) (s : State) : Except Fault (List (MemOp CommitBlock)) :=
  if 0 < s.numSvcs ∧ env.countCfg ≠ 0 then .ok [.free .null]
  else if 0 < s.numSvcs ∧ env.addSvcs ≠ 0 then .ok [.free .null]
  else if env.start ≠ 0 then .ok [.free .null]
  else if s.numSvcs = 0 ∨ env.callocSvcs = false then .ok [.free .null]
  else do
    let s := { s with valHandles := env.valHandles }
    let (blocks, done) ← commitBlocks env s (s.numSvcs - 1) 0
    let obtained := (.svcs :: blocks).map .malloc
    if done then .ok (obtained ++ (releaseRsp s.numSvcs blocks.length).map .free)
    else .ok (obtained ++ ((releaseErr s.numSvcs blocks.length).map .free ++ [.free .null]))

-- The loop obtains one block after the other, and ends early where the listing does.
structure Obtains (env : CommitEnv) (s : State) (left si : Nat) (blocks : List CommitBlock)
    (done : Bool) : Prop where
  inRow : blocks = (List.range' si blocks.length).map .chrs
  early : done = false → blocks.length < left ∧ commitLoop env s left si = .ok none
  full : done = true → blocks.length = left ∧ ∃ svcs, commitLoop env s left si = .ok (some svcs)

theorem commitBlocks_obtains (env : CommitEnv) (s : State) (left si : Nat)
    (blocks : List CommitBlock) (done : Bool)
    (h : commitBlocks env s left si = .ok (blocks, done)) : Obtains env s left si blocks done := by
  induction left generalizing si blocks done with
  | zero =>
      cases h
      exact ⟨rfl, nofun, fun _ => ⟨rfl, [], rfl⟩⟩
  | succ left ih =>
      obtain ⟨svc, hsvc, h⟩ := (bind_ok _ _ _).mp h
      cases svc with
      | none =>
          cases h
          refine ⟨rfl, fun _ => ⟨Nat.succ_pos left, ?_⟩, nofun⟩
          exact (commitLoop_succ env s left si none).mpr (Or.inl ⟨hsvc, rfl⟩)
      | some svc =>
          obtain ⟨⟨rest, restDone⟩, hrest, h⟩ := (bind_ok _ _ _).mp h
          cases h
          have hlater := ih (si + 1) rest done hrest
          refine ⟨?_, ?_, ?_⟩
          · rw [List.length_cons, List.range'_succ, List.map_cons, ← hlater.inRow]
          · intro hdone
            obtain ⟨hless, hnone⟩ := hlater.early hdone
            refine ⟨Nat.succ_lt_succ hless, ?_⟩
            exact (commitLoop_succ env s left si none).mpr (Or.inr ⟨svc, none, hsvc, hnone, rfl⟩)
          · intro hdone
            obtain ⟨hlength, svcs, hsome⟩ := hlater.full hdone
            refine ⟨congrArg Nat.succ hlength, svc :: svcs, ?_⟩
            exact (commitLoop_succ env s left si _).mpr
              (Or.inr ⟨svc, some svcs, hsvc, hsome, rfl⟩)

-- The loop faults where the listing does.
theorem commitBlocks_total (env : CommitEnv) (s : State) (left si : Nat)
    (result : Option (List CommitSvc)) (h : commitLoop env s left si = .ok result) :
    ∃ blocks done, commitBlocks env s left si = .ok (blocks, done) := by
  induction left generalizing si result with
  | zero => exact ⟨[], true, rfl⟩
  | succ left ih =>
      rcases (commitLoop_succ env s left si result).mp h with
        ⟨hsvc, -⟩ | ⟨first, rest, hsvc, hrest, -⟩
      · exact ⟨[], false, by simp only [commitBlocks, hsvc, bind, Except.bind]⟩
      · obtain ⟨blocks, done, hblocks⟩ := ih (si + 1) rest hrest
        exact ⟨.chrs si :: blocks, done, by
          simp only [commitBlocks, hsvc, hblocks, bind, Except.bind]⟩

theorem commitBlocks_nodup (blocks : List CommitBlock)
    (h : blocks = (List.range' 0 blocks.length).map .chrs) : (CommitBlock.svcs :: blocks).Nodup := by
  rw [h, List.nodup_cons]
  refine ⟨by simp, ?_⟩
  exact (List.nodup_range').map fun a b hab => CommitBlock.chrs.inj hab

theorem releaseRsp_full (numSvcs : Nat) (blocks : List CommitBlock)
    (hrow : blocks = (List.range' 0 blocks.length).map .chrs)
    (hlength : blocks.length = numSvcs - 1) :
    releaseRsp numSvcs blocks.length = (blocks ++ [CommitBlock.svcs]).map .block := by
  have hslots : (List.range (numSvcs - 1)).map (slotChrs numSvcs blocks.length) =
      blocks.map .block := by
    rw [hrow, List.length_map, List.length_range', ← hlength, List.range_eq_range', List.map_map]
    apply List.map_congr_left
    intro si hsi
    have hlt : si < blocks.length := by
      have hmem := List.mem_range'_1.mp hsi
      omega
    simp only [slotChrs, if_pos hlt, Function.comp_apply]
  rw [releaseRsp, hslots, List.map_append, List.map_singleton]

theorem rsp_balanced (numSvcs : Nat) (blocks : List CommitBlock)
    (hrow : blocks = (List.range' 0 blocks.length).map .chrs)
    (hlength : blocks.length = numSvcs - 1) :
    Ledger.Balanced ((.svcs :: blocks).map .malloc ++
      (releaseRsp numSvcs blocks.length).map .free) := by
  rw [releaseRsp_full numSvcs blocks hrow hlength]
  exact Ledger.balanced_perm _ _ (commitBlocks_nodup blocks hrow) (List.perm_append_singleton _ _)

-- The last slot that the error label looks at is behind the block.
theorem err_junk (numSvcs obtained : Nat) (hless : obtained < numSvcs - 1) :
    Ptr.junk ∈ releaseErr numSvcs obtained := by
  apply List.mem_append_left
  refine List.mem_map.mpr ⟨numSvcs - 1, List.mem_range.mpr (by omega), ?_⟩
  have hbehind : ¬numSvcs - 1 < obtained := by omega
  simp only [slotChrs, if_neg hbehind, if_neg (Nat.lt_irrefl _)]

theorem not_balanced_err (numSvcs : Nat) (blocks : List CommitBlock)
    (hless : blocks.length < numSvcs - 1) :
    ¬Ledger.Balanced ((.svcs :: blocks).map .malloc ++
      ((releaseErr numSvcs blocks.length).map .free ++ [.free .null])) := by
  intro hbalanced
  have hmem : MemOp.free .junk ∈ (CommitBlock.svcs :: blocks).map MemOp.malloc ++
      ((releaseErr numSvcs blocks.length).map .free ++ [.free .null]) := by
    apply List.mem_append_right
    apply List.mem_append_left
    exact List.mem_map_of_mem (err_junk numSvcs blocks.length hless)
  rw [Ledger.Balanced, Ledger.run_junk _ _ hmem] at hbalanced
  cases hbalanced

-- A request that allocates nothing, or one that gets as far as the loop.
theorem commitLedger_cases (env : CommitEnv) (s : State) :
    (commitLedger env s = .ok [.free .null] ∧ ¬(env.Starts ∧ 0 < s.numSvcs)) ∨
    (env.Starts ∧ 0 < s.numSvcs) := by
  by_cases hcount : 0 < s.numSvcs ∧ env.countCfg ≠ 0
  · left
    exact ⟨by simp only [commitLedger, if_pos hcount], fun h => hcount.2 h.1.countCfg⟩
  by_cases hadd : 0 < s.numSvcs ∧ env.addSvcs ≠ 0
  · left
    exact ⟨by simp only [commitLedger, if_neg hcount, if_pos hadd], fun h => hadd.2 h.1.addSvcs⟩
  by_cases hstart : env.start ≠ 0
  · left
    exact ⟨by simp only [commitLedger, if_neg hcount, if_neg hadd, if_pos hstart],
      fun h => hstart h.1.start⟩
  by_cases hcalloc : s.numSvcs = 0 ∨ env.callocSvcs = false
  · left
    refine ⟨by simp only [commitLedger, if_neg hcount, if_neg hadd, if_neg hstart,
      if_pos hcalloc], ?_⟩
    rintro ⟨hstarts, hpos⟩
    rcases hcalloc with hzero | hfalse
    · omega
    · rw [hstarts.callocSvcs] at hfalse
      cases hfalse
  · right
    obtain ⟨hzero, htrue⟩ := not_or.mp hcalloc
    have hpos : 0 < s.numSvcs := by omega
    refine ⟨⟨?_, ?_, not_not.mp hstart, Bool.eq_true_of_not_eq_false htrue⟩, hpos⟩
    · by_contra hne
      exact hcount ⟨hpos, hne⟩
    · by_contra hne
      exact hadd ⟨hpos, hne⟩

theorem commitLedger_starts (env : CommitEnv) (s : State) (hstarts : env.Starts)
    (hpos : 0 < s.numSvcs) (blocks : List CommitBlock) (done : Bool)
    (hblocks : commitBlocks env { s with valHandles := env.valHandles } (s.numSvcs - 1) 0 =
      .ok (blocks, done)) :
    commitLedger env s = .ok ((.svcs :: blocks).map .malloc ++
      if done then (releaseRsp s.numSvcs blocks.length).map .free
      else (releaseErr s.numSvcs blocks.length).map .free ++ [.free .null]) := by
  have hne : s.numSvcs ≠ 0 := by omega
  simp only [commitLedger, hstarts.countCfg, hstarts.addSvcs, hstarts.start, hstarts.callocSvcs,
    ne_eq, not_true_eq_false, and_false, ite_false, hne, or_self, Bool.true_eq_false, hblocks,
    bind, Except.bind]
  cases done <;> rfl

theorem commitSvc_none (env : CommitEnv) (s : State) (si : Nat)
    (h : commitSvc env s si = .ok none) : env.callocChrs si = false := by
  obtain ⟨uuid, -, h⟩ := (bind_ok _ _ _).mp h
  cases hchrs : (s.svcs si).characteristics with
  | none =>
      simp only [hchrs] at h
      cases h
  | some i =>
      simp only [hchrs] at h
      obtain ⟨numChrs, -, h⟩ := (bind_ok _ _ _).mp h
      by_cases hcalloc : env.callocChrs si = true
      · rw [if_pos hcalloc] at h
        obtain ⟨chrs, -, h⟩ := (bind_ok _ _ _).mp h
        cases h
      · exact Bool.eq_false_of_not_eq_true hcalloc

theorem callocChrs_failed (env : CommitEnv) (s : State) (hstarts : env.Starts) (n : Nat)
    (h : commitLoop env { s with valHandles := env.valHandles } n 0 = .ok none)
    (hn : n = s.numSvcs - 1) : ∃ si, env.FailsAt s (.callocChrs si) := by
  obtain ⟨k, hk, hsvcs, hnone⟩ := (commitLoop_none_iff env _ n 0).mp h
  rw [Nat.zero_add] at hnone
  refine ⟨k, hstarts, by omega, ?_, hsvcs, hnone⟩
  exact (commitSvc_none env _ k hnone)

-- The memory of a commit_svcs request comes back, unless the characteristics of a service
-- cannot be allocated: the error label then passes on a pointer that was never set.
theorem commitLedger_balanced_iff (env : CommitEnv) (s : State) :
    (∀ rsp next, commitSvcs env s = .ok (rsp, next) →
      ∃ ops, commitLedger env s = .ok ops ∧ Ledger.Balanced ops) ∧
    ∀ ops, commitLedger env s = .ok ops →
      (Ledger.Balanced ops ↔ ∀ si, ¬env.FailsAt s (.callocChrs si)) := by
  rcases commitLedger_cases env s with ⟨hnothing, hnot⟩ | ⟨hstarts, hpos⟩
  · have hbalanced : Ledger.Balanced ([.free .null] : List (MemOp CommitBlock)) := rfl
    refine ⟨fun _ _ _ => ⟨_, hnothing, hbalanced⟩, ?_⟩
    intro ops hops
    obtain rfl := Except.ok.inj (hnothing.symm.trans hops)
    refine iff_of_true hbalanced ?_
    intro si hfails
    obtain ⟨hstarts, hsi, -⟩ := hfails
    exact hnot ⟨hstarts, by omega⟩
  · refine ⟨?_, ?_⟩
    · intro rsp next hcommit
      obtain ⟨svcs, hloop, -⟩ := (commitSvcs_iff env s hstarts hpos _).mp hcommit
      obtain ⟨blocks, done, hblocks⟩ := commitBlocks_total env _ _ 0 _ hloop
      have hobtains := commitBlocks_obtains env _ _ 0 blocks done hblocks
      cases done with
      | false =>
          have hnone := (hobtains.early rfl).2
          rw [hloop] at hnone
          cases hnone
      | true =>
          refine ⟨_, commitLedger_starts env s hstarts hpos blocks true hblocks, ?_⟩
          exact rsp_balanced s.numSvcs blocks hobtains.inRow (hobtains.full rfl).1
    · intro ops hops
      cases hblocks : commitBlocks env { s with valHandles := env.valHandles } (s.numSvcs - 1) 0 with
      | error fault =>
          have hne : s.numSvcs ≠ 0 := by omega
          simp only [commitLedger, hstarts.countCfg, hstarts.addSvcs, hstarts.start,
            hstarts.callocSvcs, ne_eq, not_true_eq_false, and_false, ite_false, hne, or_self,
            Bool.true_eq_false, hblocks, bind, Except.bind] at hops
          cases hops
      | ok result =>
          obtain ⟨blocks, done⟩ := result
          have hobtains := commitBlocks_obtains env _ _ 0 blocks done hblocks
          have hledger := commitLedger_starts env s hstarts hpos blocks done hblocks
          obtain rfl := Except.ok.inj (hledger.symm.trans hops)
          cases done with
          | false =>
              obtain ⟨hless, hnone⟩ := hobtains.early rfl
              obtain ⟨si, hfails⟩ := callocChrs_failed env s hstarts _ hnone rfl
              refine iff_of_false ?_ fun hall => hall si hfails
              exact not_balanced_err s.numSvcs blocks hless
          | true =>
              obtain ⟨hlength, svcs, hsome⟩ := hobtains.full rfl
              refine iff_of_true (rsp_balanced s.numSvcs blocks hobtains.inRow hlength) ?_
              rintro si ⟨-, hsi, -, hsvcs, hnone⟩
              have hearly := (commitLoop_none_iff env _ (s.numSvcs - 1) 0).mpr
                ⟨si, hsi, hsvcs, by rw [Nat.zero_add]; exact hnone⟩
              rw [hsome] at hearly
              cases hearly

end Blehostd.Gatts
