import Blehostd.Gatts.Commit

namespace Blehostd.Gatts

inductive Request where
  | add (svcs : List Svc)
  | clear (reset : Int)
  | commit (env : CommitEnv)

-- The tables, and how many slots of each the records took that the host has
-- registered and not yet given up.
structure Registry where
  tables : State
  committed : Resources

namespace Registry

def initial : Registry := ⟨State.initial, ⟨0, 0, 0, 0, 0⟩⟩

def taken (s : State) : Resources :=
  ⟨s.numSvcs, s.numChrs, s.numDscs, s.numUuids, s.numValHandles⟩

-- The status of the answer, and what the request leaves behind. The host gives
-- its records up when ble_gatts_reset succeeds.
def step (r : Registry) : Request → Except Fault (Int × Registry)
  | .add svcs => do
      let (status, tables) ← addSvcs svcs r.tables
      .ok (status, { r with tables := tables })
  | .clear reset =>
      let (status, tables) := clearSvcs reset r.tables
      .ok (status, ⟨tables, if reset = 0 then ⟨0, 0, 0, 0, 0⟩ else r.committed⟩)
  | .commit env => do
      let (rsp, tables) ← commitSvcs env r.tables
      let registered := env.countCfg = 0 ∧ env.addSvcs = 0 ∧ env.start = 0
      .ok (rsp.status, ⟨tables, if registered then taken tables else r.committed⟩)

def run (r : Registry) (requests : List Request) : Except Fault Registry :=
  requests.foldlM (fun r request => (r.step request).map Prod.snd) r

end Registry

end Blehostd.Gatts
