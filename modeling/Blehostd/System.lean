import Blehostd.Service

namespace Blehostd

-- The daemon with its memory: the response that is not queued yet, the blocks of the GATT
-- client, the callbacks that the host may call, and everything put on blehostd_rsp_mq.
structure System where
  world : World
  pending : Option Rsp
  heap : ArgHeap
  callbacks : List Callback
  put : List Mbuf

-- A call that gives a callback to the host. The host keeps it when the call succeeds.
def startCall (host : Host) (block : Nat) (call : HostCall) (heap : ArgHeap) :
    Option (ArgHeap × List Callback) :=
  let kept (cb : Callback) := if host.result call = 0 then [cb] else []
  match call.callback block with
  | none => some (heap, [])
  | some (cb, none) => some (heap, kept cb)
  | some (cb, some arg) => do
      let heap ← gattcDiscArg block arg (host.result call) heap
      some (heap, kept cb)

def startCalls (host : Host) (block : Nat) : List HostCall → ArgHeap →
    Option (ArgHeap × List Callback)
  | [], heap => some (heap, [])
  | call :: rest, heap => do
      let (heap, started) ← startCall host block call heap
      let (heap, later) ← startCalls host block rest heap
      some (heap, started ++ later)

namespace System

def initial : System := ⟨World.initial, none, Heap.empty, [], []⟩

-- The callbacks do not look at the result of bhd_evt_send.
def sendEvt (lib : Externs) (evt : Option Evt) (s : System) : Option System :=
  match evt with
  | none => some s
  | some evt => do
      let (_, put) ← (evtSend lib evt s.put).toOption
      some { s with put := put }

-- blehostd_on_sync and blehostd_on_reset assert that it is 0.
def sendEvtAsserted (lib : Externs) (evt : Evt) (s : System) : Option System := do
  let (rc, put) ← (evtSend lib evt s.put).toOption
  if rc = 0 then some { s with put := put } else none

def step (lib : Externs) (s : System) : SysAct → Option System
  | .request packet junk host block =>
      match s.pending with
      | some _ => none
      | none => do
          let outcome ← (reqDec (lib.parse (reqText packet)) junk host s.world).toOption
          let (heap, started) ← startCalls host block outcome.answer.calls s.heap
          let pending := if outcome.ret = 0 then none else some outcome.answer.rsp
          some ⟨outcome.answer.world, pending, heap, s.callbacks ++ started, s.put⟩
  | .respond => do
      let rsp ← s.pending
      let (_, put) ← (rspSend lib rsp s.put).toOption
      some { s with pending := none, put := put }
  | .callback i host input => do
      let cb ← s.callbacks[i]?
      let (outcome, heap) ← runCallback host cb input s.world.tables.nextSeq s.heap
      let callbacks := if input.last then s.callbacks.eraseIdx i else s.callbacks
      sendEvt lib outcome.evt { s with
        world := s.world.withNextSeq outcome.nextSeq
        heap := heap
        callbacks := callbacks }
  | .sync synced =>
      let (seq, nextSeq) := nextEvtSeq s.world.tables.nextSeq
      sendEvtAsserted lib (sendSyncEvt synced seq) { s with world := s.world.withNextSeq nextSeq }
  | .reset reason =>
      let (seq, nextSeq) := nextEvtSeq s.world.tables.nextSeq
      sendEvtAsserted lib (sendResetEvt seq reason) { s with world := s.world.withNextSeq nextSeq }
  | .access attr host accessOp connHandle attrHandle om => do
      let seq ← s.world.tables.attrArg attr
      sendEvt lib (gattsAccess host accessOp connHandle attrHandle om seq) s
  | .accessWake => do
      let world ← s.world.accessWake
      some { s with world := world }
  | .accessReset => some { s with world := s.world.accessReset }

end System

end Blehostd
