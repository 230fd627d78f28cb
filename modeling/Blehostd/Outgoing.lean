import Mathlib.Logic.Function.Basic
import Blehostd.Daemon
import Blehostd.Library.Transition

namespace Blehostd

-- The blehostd task runs the events of blehostd_evq, the main task those of the
-- default queue.
inductive Task where
  | blehostd | main
deriving DecidableEq, Repr

def Task.other : Task → Task
  | .blehostd => .main
  | .main => .blehostd

-- Where a task stands in blehostd_process_rsp_mq, with the message it has in hand.
inductive SendPhase where
  | idle
  | looping
  | sending (om : Mbuf)
  | refused (om : Mbuf)
deriving DecidableEq, Repr

def SendPhase.hand : SendPhase → List Mbuf
  | .sending om => [om]
  | .refused om => [om]
  | _ => []

-- blehostd_rsp_mq with its event, which is in one event queue at most, and the
-- history of what was put on the queue and what the socket took.
structure Outgoing where
  rspMq : List Mbuf
  posted : Option Task
  phase : Task → SendPhase
  put : List Mbuf
  taken : List Mbuf

inductive SendAct where
  | enqueue (json : Text)
  | writable
  | start (t : Task)
  | get (t : Task)
  | sendto (t : Task) (room : Bool)
  | reinsert (t : Task)
deriving DecidableEq, Repr

namespace Outgoing

def initial : Outgoing := ⟨[], none, fun _ => .idle, [], []⟩

-- os_eventq_put leaves an event alone that is in a queue already.
def post (s : Outgoing) (t : Task) : Outgoing :=
  match s.posted with
  | none => { s with posted := some t }
  | some _ => s

def setPhase (s : Outgoing) (t : Task) (phase : SendPhase) : Outgoing :=
  { s with phase := Function.update s.phase t phase }

def step (s : Outgoing) : SendAct → Option Outgoing
  | .enqueue json =>
      let (rc, rspMq) := enqueueRsp json s.rspMq
      if rc = 0 then
        some (post { s with rspMq := rspMq, put := s.put ++ [rspFrame json] } .blehostd)
      else some s
  | .writable => some (s.post .main)
  | .start t =>
      if s.posted = some t ∧ s.phase t = .idle then
        some (setPhase { s with posted := none } t .looping)
      else none
  | .get t =>
      if s.phase t = .looping then
        match s.rspMq with
        | [] => some (s.setPhase t .idle)
        | om :: rest => some (setPhase { s with rspMq := rest } t (.sending om))
      else none
  | .sendto t room =>
      match s.phase t with
      | .sending om =>
          -- MN_EAGAIN when there is no room.
          if room then some (setPhase { s with taken := s.taken ++ [om] } t .looping)
          else some (s.setPhase t (.refused om))
      | _ => none
  | .reinsert t =>
      match s.phase t with
      | .refused om => some (setPhase { s with rspMq := om :: s.rspMq } t .idle)
      | _ => none

def run (s : Outgoing) (acts : List SendAct) : Option Outgoing :=
  Transition.run step s acts

end Outgoing

end Blehostd
