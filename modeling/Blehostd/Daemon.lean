import Blehostd.Responses
import Blehostd.Stream

namespace Blehostd

-- Functions of cJSON and of the host that the request path uses.
structure Externs where
  parse : Text → Option Json
  print : Json → Text
  uuidToStr : Uuid → Text

structure Daemon where
  world : World
  rspMq : List Mbuf

namespace Daemon

def initial : Daemon := ⟨World.initial, []⟩

end Daemon

-- What changes the state: a request, the two steps of an access callback that
-- write the pending access, an event with its number, and the socket.
inductive Event where
  | request (packet : Mbuf) (junk : Junk) (host : Host)
  | accessWake
  | accessReset
  | evtSeq
  | evtSend (json : Text)
  | rspTaken

-- htons in front of the text.
def rspFrame (json : Text) : Mbuf :=
  UInt8.ofNat (json.length / 256) :: UInt8.ofNat json.length :: json

-- The allocations of blehostd_enqueue_rsp succeed.
def enqueueRsp (json : Text) (rspMq : List Mbuf) : Int × List Mbuf :=
  if BLEHOSTD_MAX_MSG_SZ < json.length then (SYS_EINVAL, rspMq)
  else (0, rspMq ++ [rspFrame json])

def rspSend (lib : Externs) (rsp : Rsp) (rspMq : List Mbuf) : Except Fault (Int × List Mbuf) := do
  let root ← rspEnc lib.uuidToStr rsp
  .ok (enqueueRsp (lib.print root) rspMq)

-- The packet with a NUL behind it, read as a C string.
def reqText (packet : Mbuf) : Text :=
  packet.takeWhile (· ≠ 0)

-- The result of bhd_rsp_send is not tested.
def processReq (lib : Externs) (packet : Mbuf) (junk : Junk) (host : Host) (d : Daemon) :
    Except Fault Daemon := do
  let outcome ← reqDec (lib.parse (reqText packet)) junk host d.world
  if outcome.ret = 0 then .ok { d with world := outcome.answer.world }
  else
    let (_, rspMq) ← rspSend lib outcome.answer.rsp d.rspMq
    .ok ⟨outcome.answer.world, rspMq⟩

def step (lib : Externs) (d : Daemon) : Event → Option Daemon
  | .request packet junk host => (processReq lib packet junk host d).toOption
  | .accessWake =>
      let access := d.world.access
      if 0 < access.sem then
        some { d with world := { d.world with access := { access with sem := access.sem - 1 } } }
      else none
  | .accessReset =>
      let access := { d.world.access with attStatus := BHD_GATTS_ACCESS_STATUS_NONE }
      some { d with world := { d.world with access := access } }
  | .evtSeq =>
      let tables := { d.world.tables with nextSeq := (nextEvtSeq d.world.tables.nextSeq).2 }
      some { d with world := { d.world with tables := tables } }
  | .evtSend json => some { d with rspMq := (enqueueRsp json d.rspMq).2 }
  | .rspTaken =>
      match d.rspMq with
      | [] => none
      | _ :: rest => some { d with rspMq := rest }

end Blehostd
