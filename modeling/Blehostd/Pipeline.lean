import Blehostd.Outgoing
import Blehostd.System

namespace Blehostd

-- The whole path of a request: the bytes of the socket, blehostd_req_mq, the daemon, and
-- blehostd_rsp_mq with its two tasks.
structure Pipeline where
  reader : Reader
  sys : System
  out : Outgoing

inductive PipeAct where
  | recv (om : Mbuf)
  | process (junk : Junk) (host : Host) (block : Nat)
  | system (act : SysAct)
  | socket (act : SendAct)

-- os_mqueue_put with an mbuf that is there already.
def Outgoing.putFrame (s : Outgoing) (om : Mbuf) : Outgoing :=
  post { s with rspMq := s.rspMq ++ [om], put := s.put ++ [om] } .blehostd

-- What a step of the daemon has put on blehostd_rsp_mq.
def Outgoing.flush (s : Outgoing) (old new : System) : Outgoing :=
  (new.put.drop old.put.length).foldl Outgoing.putFrame s

namespace Pipeline

def initial : Pipeline := ⟨Reader.initial, System.initial, Outgoing.initial⟩

-- A request is the head of blehostd_req_mq, and a message comes onto blehostd_rsp_mq through
-- the daemon only.
def step (lib : Externs) (p : Pipeline) : PipeAct → Option Pipeline
  | .recv om => some { p with reader := socketReadable (fun _ => Alloc.ok) om p.reader }
  | .process junk host block =>
      match p.reader.reqMq with
      | [] => none
      | packet :: rest => do
          let sys ← System.step lib p.sys (.request packet junk host block)
          some ⟨{ p.reader with reqMq := rest }, sys, p.out.flush p.sys sys⟩
  | .system act =>
      match act with
      | .request _ _ _ _ => none
      | act => do
          let sys ← System.step lib p.sys act
          some { p with sys := sys, out := p.out.flush p.sys sys }
  | .socket act =>
      match act with
      | .enqueue _ => none
      | act => do
          let out ← Outgoing.step p.out act
          some { p with out := out }

end Pipeline

end Blehostd
