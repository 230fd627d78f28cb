import Blehostd.Gatts.Theorems
import Blehostd.Requests.Theorems

namespace Blehostd

-- The counters are in bounds and nothing was ever stored past the end of a table.
structure InTables (s : Gatts.State) : Prop where
  within : Gatts.Within s
  svcs : ∀ i, Gatts.BHD_GATTS_MAX_SVCS ≤ i → s.svcs i = .zero
  chrs : ∀ i, Gatts.BHD_GATTS_MAX_CHRS ≤ i → s.chrs i = .zero
  dscs : ∀ i, Gatts.BHD_GATTS_MAX_DSCS ≤ i → s.dscs i = .zero
  uuids : ∀ i, Gatts.BHD_GATTS_MAX_UUIDS ≤ i → s.uuids i = .zero

theorem inTables_zeroed (nextSeq : UInt32) : InTables (Gatts.State.zeroed nextSeq) :=
  ⟨Gatts.within_zeroed nextSeq, fun _ _ => rfl, fun _ _ => rfl, fun _ _ => rfl, fun _ _ => rfl⟩

theorem InTables.added {svcs : List Gatts.Svc} {s s' : Gatts.State} (hs : InTables s)
    (h : Gatts.addSvcs svcs s = .ok (0, s')) : InTables s' := by
  have hwithin := Gatts.addSvcs_within svcs s s' h
  have hgrows := (Gatts.addSvcs_added svcs s s' h).grows
  refine ⟨hwithin, ?_, ?_, ?_, ?_⟩
  · intro i hi
    rw [hgrows.svcs i (Or.inr (Nat.le_trans hwithin.numSvcs hi)), hs.svcs i hi]
  · intro i hi
    rw [hgrows.chrs i (Or.inr (Nat.le_trans hwithin.numChrs hi)), hs.chrs i hi]
  · intro i hi
    rw [hgrows.dscs i (Or.inr (Nat.le_trans hwithin.numDscs hi)), hs.dscs i hi]
  · intro i hi
    rw [hgrows.uuids i (Or.inr (Nat.le_trans hwithin.numUuids hi)), hs.uuids i hi]

theorem InTables.cleared {s : Gatts.State} (hs : InTables s) (reset : Int) :
    InTables (Gatts.clearSvcs reset s).2 :=
  ⟨Gatts.clearSvcs_within reset s, hs.svcs, hs.chrs, hs.dscs, hs.uuids⟩

-- The requests that change the tables without the host.
inductive TableReq where
  | addSvcs (r : Req) (host : Host)
  | clearSvcs (r : Req) (host : Host)

def TableReq.process (q : TableReq) (world : World) : Except Fault Outcome :=
  match q with
  | .addSvcs r host => runReq addSvcsReqRun r host (Rsp.cleared .addSvcs r.seq) world
  | .clearSvcs r host => runReq clearSvcsReqRun r host (Rsp.cleared .clearSvcs r.seq) world

def TableReq.run (world : World) (requests : List TableReq) : Except Fault World :=
  requests.foldlM (fun world q => (q.process world).map (·.answer.world)) world

theorem addSvcsReqRun_action (r : Req) : (addSvcsReqRun r).Returns fun action =>
    ∃ svcs, action = gattsAddSvcs svcs := by
  apply Decoder.returns_bind
  intro svcs _
  exact Decoder.returns_pure _ ⟨svcs, rfl⟩

-- No assert fails, and what is refused changes nothing.
theorem addSvcs_safe (r : Req) (host : Host) (world : World) (hw : InTables world.tables) :
    ∃ outcome, (TableReq.addSvcs r host).process world = .ok outcome ∧
      InTables outcome.answer.world.tables ∧
      (outcome.answer.rsp.status ≠ 0 → outcome.answer.world = world) := by
  unfold TableReq.process
  cases hresult : (addSvcsReqRun r).result with
  | error e => exact ⟨_, runReq_exit _ _ _ _ _ e hresult, hw, fun _ => rfl⟩
  | ok action =>
      obtain ⟨svcs, rfl⟩ := addSvcsReqRun_action r action hresult
      rcases Gatts.addSvcs_total svcs world.tables with ⟨_, hadd⟩ | ⟨s', hadd⟩
      · have hanswer := gattsAddSvcs_of svcs host (Rsp.cleared .addSvcs r.seq) world _ _ hadd
        have hrun := (runReq_action _ _ _ _ _ _ hresult _).mpr ⟨_, hanswer, rfl⟩
        exact ⟨_, hrun, hw, fun _ => rfl⟩
      · have hanswer := gattsAddSvcs_of svcs host (Rsp.cleared .addSvcs r.seq) world _ _ hadd
        have hrun := (runReq_action _ _ _ _ _ _ hresult _).mpr ⟨_, hanswer, rfl⟩
        exact ⟨_, hrun, hw.added hadd, fun hstatus => absurd rfl hstatus⟩

theorem tableReq_safe (q : TableReq) (world : World) (hw : InTables world.tables) :
    ∃ outcome, q.process world = .ok outcome ∧ InTables outcome.answer.world.tables := by
  cases q with
  | addSvcs r host =>
      obtain ⟨outcome, hrun, hin, _⟩ := addSvcs_safe r host world hw
      exact ⟨outcome, hrun, hin⟩
  | clearSvcs r host => exact ⟨_, rfl, hw.cleared (host.result .gattsReset).toInt⟩

theorem tableReq_run_safe (requests : List TableReq) (world : World) (hw : InTables world.tables) :
    ∃ last, TableReq.run world requests = .ok last ∧ InTables last.tables := by
  induction requests generalizing world with
  | nil => exact ⟨world, rfl, hw⟩
  | cons q rest ih =>
      obtain ⟨outcome, hrun, hin⟩ := tableReq_safe q world hw
      obtain ⟨last, hlast, hinlast⟩ := ih outcome.answer.world hin
      refine ⟨last, ?_, hinlast⟩
      simp only [TableReq.run, List.foldlM_cons, hrun, Except.map, bind, Except.bind]
      exact hlast

-- Every run of add_svcs and clear_svcs requests completes inside the tables,
-- and a request that is refused after it leaves all of them as they are.
theorem table_requests_safe (requests : List TableReq) :
    ∃ last, TableReq.run World.initial requests = .ok last ∧ InTables last.tables ∧
      ∀ r host, ∃ outcome, (TableReq.addSvcs r host).process last = .ok outcome ∧
        (outcome.answer.rsp.status ≠ 0 → outcome.answer.world = last) := by
  obtain ⟨last, hlast, hin⟩ :=
    tableReq_run_safe requests World.initial (inTables_zeroed BHD_SEQ_EVT_MIN)
  refine ⟨last, hlast, hin, ?_⟩
  intro r host
  obtain ⟨outcome, hrun, _, hrefused⟩ := addSvcs_safe r host last hin
  exact ⟨outcome, hrun, hrefused⟩

end Blehostd
