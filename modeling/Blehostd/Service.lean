import Blehostd.Callbacks

namespace Blehostd

-- What a procedure of the host reports with.
inductive ProcKind where
  | gap | discSvc | discChr | discDsc | write | mtu
deriving DecidableEq, Repr

-- The requests that start a procedure, whose reports come as events.
def MsgType.kind : MsgType → Option ProcKind
  | .connect => some .gap
  | .scan => some .gap
  | .advStart => some .gap
  | .discAllSvcs => some .discSvc
  | .discSvcUuid => some .discSvc
  | .discAllChrs => some .discChr
  | .discChrUuid => some .discChr
  | .discAllDscs => some .discDsc
  | .write => some .write
  | .exchangeMtu => some .mtu
  | _ => none

def CbInput.kind : CbInput → ProcKind
  | .gapEvent _ => .gap
  | .discSvc _ _ _ => .discSvc
  | .discChr _ _ _ => .discChr
  | .discDsc _ _ _ _ => .discDsc
  | .write _ _ _ => .write
  | .mtu _ _ _ => .mtu

inductive Message where
  | rsp (rsp : Rsp)
  | evt (evt : Evt)

-- The daemon as its client sees it: a request gets a response, and what the host reports
-- of a procedure becomes an event with the number of the request that started it. There
-- is no memory, no text and no frame.
structure Service where
  world : World
  pending : Option Rsp
  procs : List MsgHdr
  sent : List Message

-- What happens to the daemon. A request is processed in two steps, since the host may
-- report before the response is queued. The block is the one that malloc would give out.
inductive SysAct where
  | request (packet : Mbuf) (junk : Junk) (host : Host) (block : Nat)
  | respond
  | callback (i : Nat) (host : CbHost) (input : CbInput)
  | sync (synced : Bool)
  | reset (reason : Int32)
  | access (attr : Gatts.Attr) (host : CbHost) (accessOp : UInt8) (connHandle attrHandle : UInt16)
      (om : Mbuf)
  | accessWake
  | accessReset

def World.withNextSeq (world : World) (nextSeq : UInt32) : World :=
  { world with tables := { world.tables with nextSeq := nextSeq } }

-- The two steps of the access callback that write the pending access.
def World.accessWake (world : World) : Option World :=
  if 0 < world.access.sem then
    some { world with access := { world.access with sem := world.access.sem - 1 } }
  else none

def World.accessReset (world : World) : World :=
  { world with access := { world.access with attStatus := BHD_GATTS_ACCESS_STATUS_NONE } }

-- The header of a packet, if it has one.
def headerOfPacket (lib : Externs) (packet : Mbuf) : Option MsgHdr :=
  (lib.parse (reqText packet)).bind fun root => (msgHdrDec root).toOption

-- A procedure is running when its response says so.
def startedBy (hdr : Option MsgHdr) (rsp : Rsp) : List MsgHdr :=
  hdr.toList.filter fun req => req.type.kind.isSome && rsp.status = 0

-- What the host says of a GATT procedure, as the union of the event has it. The record of a
-- report that found none stays cleared.
def CbInput.body : CbInput → Option EvtBody
  | .gapEvent _ => none
  | .discSvc connHandle status service =>
      let svc := if status = 0 then service else GattSvc.zero
      some (.discSvc ⟨connHandle, gattStatus status, svc⟩)
  | .discChr connHandle status chr =>
      let chr := if status = 0 then chr else GattChr.zero
      some (.discChr ⟨connHandle, gattStatus status, chr⟩)
  | .discDsc connHandle status chrDefHandle dsc =>
      let dsc := if status = 0 then dsc else GattDsc.zero
      some (.discDsc ⟨connHandle, gattStatus status, chrDefHandle, dsc⟩)
  | .write connHandle status attrHandle =>
      some (.writeAck ⟨connHandle, attrHandle, gattStatus status⟩)
  | .mtu connHandle status value => some (.mtuChange ⟨connHandle, value, gattStatus status⟩)

namespace Service

def initial : Service := ⟨World.initial, none, [], []⟩

def reported (seq : UInt32) (body : EvtBody) (nextSeq : UInt32) : CbOutcome :=
  ⟨0, some ⟨⟨.evt, body.type, seq⟩, body⟩, nextSeq, none⟩

-- A report of the procedure that a request has started.
def report (host : CbHost) (req : MsgHdr) (input : CbInput) (nextSeq : UInt32) :
    Option CbOutcome :=
  if req.type.kind = some input.kind then
    match input with
    | .gapEvent event => (gapEvent host event req.seq nextSeq).toOption
    | input => input.body.map fun body => reported req.seq body nextSeq
  else none

def send (t : Service) (evt : Option Evt) : Service :=
  { t with sent := t.sent ++ evt.toList.map Message.evt }

def step (lib : Externs) (t : Service) : SysAct → Option Service
  | .request packet junk host _ =>
      match t.pending with
      | some _ => none
      | none => do
          let outcome ← (reqOutcome (lib.parse (reqText packet)) junk host t.world).toOption
          let rsp := outcome.answer.rsp
          some ⟨outcome.answer.world, some rsp,
            t.procs ++ startedBy (headerOfPacket lib packet) rsp, t.sent⟩
  | .respond => do
      let rsp ← t.pending
      some { t with pending := none, sent := t.sent ++ [.rsp rsp] }
  | .callback i host input => do
      let req ← t.procs[i]?
      let outcome ← report host req input t.world.tables.nextSeq
      let procs := if input.last then t.procs.eraseIdx i else t.procs
      some (send { t with world := t.world.withNextSeq outcome.nextSeq, procs := procs } outcome.evt)
  | .sync synced =>
      let (seq, nextSeq) := nextEvtSeq t.world.tables.nextSeq
      some (send { t with world := t.world.withNextSeq nextSeq } (some (sendSyncEvt synced seq)))
  | .reset reason =>
      let (seq, nextSeq) := nextEvtSeq t.world.tables.nextSeq
      some (send { t with world := t.world.withNextSeq nextSeq } (some (sendResetEvt seq reason)))
  | .access attr host accessOp connHandle attrHandle om => do
      let seq ← t.world.tables.attrArg attr
      some (send t (gattsAccess host accessOp connHandle attrHandle om seq))
  | .accessWake => do
      let world ← t.world.accessWake
      some { t with world := world }
  | .accessReset => some { t with world := t.world.accessReset }

end Service

end Blehostd
