import Blehostd.Gatts

namespace Blehostd.Gatts

-- The entries of a commit_svcs response. The arrays come from calloc, so what
-- the loops do not fill in stays zero.
structure CommitDsc where
  uuid : UuidAny
  handle : UInt16
deriving DecidableEq, Repr

structure CommitChr where
  uuid : UuidAny
  defHandle : UInt16
  valHandle : UInt16
  dscs : List CommitDsc
deriving DecidableEq, Repr

structure CommitSvc where
  uuid : UuidAny
  handle : UInt16
  chrs : List CommitChr
deriving DecidableEq, Repr

structure CommitRsp where
  status : Int
  svcs : List CommitSvc
deriving DecidableEq, Repr

-- What the host answers to the three calls, the value handles that it has
-- stored when ble_gatts_start returns, and which allocations succeed.
structure CommitEnv where
  countCfg : Int
  addSvcs : Int
  start : Int
  valHandles : Nat → UInt16
  callocSvcs : Bool
  callocChrs : Nat → Bool

def derefUuid (s : State) : Option Nat → Except Fault UuidAny
  | none => .error .nullPointer
  | some slot => .ok (s.uuids slot)

def derefValHandle (s : State) : Option Nat → Except Fault UInt16
  | none => .error .nullPointer
  | some slot => do
      require (slot < BHD_GATTS_MAX_VAL_HANDLES) .outOfBounds
      .ok (s.valHandles slot)

-- The number of characteristics up to the first NULL uuid, in the `left` slots
-- from slot `i` to the end of the table.
def countChrs (s : State) : Nat → Nat → Except Fault Nat
  | 0, _ => .error .outOfBounds
  | left + 1, i =>
      if (s.chrs i).uuid = none then .ok 0 else (countChrs s left (i + 1)).map (· + 1)

def commitChr (s : State) (i : Nat) : Except Fault CommitChr := do
  let srcChr := s.chrs i
  let uuid ← derefUuid s srcChr.uuid
  let valHandle ← derefValHandle s srcChr.valHandle
  .ok
    { uuid := UuidAny.zero.copy uuid
      defHandle := valHandle - 1
      valHandle := valHandle
      dscs := [] }

def commitChrs (s : State) : Nat → Nat → Except Fault (List CommitChr)
  | 0, _ => .ok []
  | left + 1, i => do
      let chr ← commitChr s i
      let rest ← commitChrs s left (i + 1)
      .ok (chr :: rest)

-- No entry when the characteristics cannot be allocated.
def commitSvc (env : CommitEnv) (s : State) (si : Nat) : Except Fault (Option CommitSvc) := do
  let srcSvc := s.svcs si
  let uuid ← derefUuid s srcSvc.uuid
  match srcSvc.characteristics with
  | none => .error .nullPointer
  | some i => do
      let numChrs ← countChrs s (BHD_GATTS_MAX_CHRS - i) i
      if env.callocChrs si then
        let chrs ← commitChrs s numChrs i
        .ok (some { uuid := UuidAny.zero.copy uuid, handle := 0, chrs := chrs })
      else
        .ok none

def commitLoop (env : CommitEnv) (s : State) : Nat → Nat → Except Fault (Option (List CommitSvc))
  | 0, _ => .ok (some [])
  | left + 1, si => do
      let svc ← commitSvc env s si
      match svc with
      | none => .ok none
      | some svc => do
          let rest ← commitLoop env s left (si + 1)
          .ok (rest.map (svc :: ·))

-- The cleanup loop looks at bhd_gatts_num_svcs entries, one more than there are.
def freeChrs (numSvcs allocated : Nat) : Except Fault Unit :=
  require (numSvcs ≤ allocated) .outOfBounds

-- The part after the services have been allocated.
def commitListing (env : CommitEnv) (s : State) : Except Fault (CommitRsp × State) := do
  let svcs ← commitLoop env s (s.numSvcs - 1) 0
  match svcs with
  | some svcs => .ok (⟨0, svcs⟩, s)
  | none => do
      freeChrs s.numSvcs (s.numSvcs - 1)
      .ok (⟨0, []⟩, s)

-- The response is cleared before. Without any service, the size given to calloc
-- is negative and the allocation fails with rc still 0.
def commitSvcs (env : CommitEnv) (s : State) : Except Fault (CommitRsp × State) :=
  if 0 < s.numSvcs ∧ env.countCfg ≠ 0 then .ok (⟨env.countCfg, []⟩, s)
  else if 0 < s.numSvcs ∧ env.addSvcs ≠ 0 then .ok (⟨env.addSvcs, []⟩, s)
  else
    let s := { s with valHandles := env.valHandles }
    if env.start ≠ 0 then .ok (⟨env.start, []⟩, s)
    else if s.numSvcs = 0 ∨ env.callocSvcs = false then .ok (⟨0, []⟩, s)
    else commitListing env s

end Blehostd.Gatts
