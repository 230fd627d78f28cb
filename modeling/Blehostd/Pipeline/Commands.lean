import Blehostd.Commands.Decoding
import Blehostd.Pipeline.Theorems

namespace Blehostd

-- What happens to the daemon, with a command in the place of the packet of a request.
inductive CommandAct where
  | command (c : Command) (seq : UInt32) (host : Host) (block : Nat)
  | other (act : SysAct)

-- The daemon without the texts of its requests.
def CommandAct.step (lib : Externs) (s : System) : CommandAct → Option System
  | .command c seq host block =>
      match s.pending with
      | some _ => none
      | none => do
          let answer ← (c.action seq host (Rsp.cleared c.type seq) s.world).toOption
          let (heap, started) ← startCalls host block answer.calls s.heap
          some ⟨answer.world, some answer.rsp, heap, s.callbacks ++ started, s.put⟩
  | .other act => System.step lib s act

-- A packet with the text of a request for the command.
structure AsksFor (lib : Externs) (command : Command × UInt32) (packet : Mbuf) : Prop where
  requestable : command.1.Requestable
  seq : command.2 ≤ BHD_SEQ_MAX
  text : ∃ root, lib.parse (reqText packet) = some root ∧
    command.1.WrittenIn lib.uuidToStr command.2 root

inductive Says (lib : Externs) : CommandAct → SysAct → Prop where
  | command (c : Command) (seq : UInt32) (packet : Mbuf) (junk : Junk) (host : Host) (block : Nat)
      (hasks : AsksFor lib (c, seq) packet) :
      Says lib (.command c seq host block) (.request packet junk host block)
  | other (act : SysAct) : Says lib (.other act) act

section Executing

variable (lib : Externs)
  (hstr : ∀ value, lib.uuidToStr (.u128 value) = canonicalUuid (.u128 value))

include hstr

-- A request is executed as its command says.
theorem step_says (cmd : CommandAct) (act : SysAct) (h : Says lib cmd act) (s : System) :
    System.step lib s act = CommandAct.step lib s cmd := by
  cases h with
  | other act => rfl
  | command c seq packet junk host block hasks =>
      obtain ⟨root, hroot, hwritten⟩ := hasks.text
      have hdec := reqDec_command lib.uuidToStr hstr root seq junk c hasks.requestable hasks.seq
        hwritten host s.world
      cases hpending : s.pending with
      | some rsp => simp only [System.step, CommandAct.step, hpending]
      | none =>
          simp only [System.step, CommandAct.step, hpending, hroot, hdec]
          cases c.action seq host (Rsp.cleared c.type seq) s.world with
          | error fault => rfl
          | ok answer => rfl

theorem run_says (cmds : List CommandAct) (acts : List SysAct)
    (h : List.Forall₂ (Says lib) cmds acts) (s : System) :
    Transition.run (System.step lib) s acts = Transition.run (CommandAct.step lib) s cmds := by
  induction h generalizing s with
  | nil => rfl
  | cons hsays _ ih =>
      simp only [Transition.run, step_says lib hstr _ _ hsays, ih]

end Executing

def CommandAct.request : CommandAct → Option (Command × UInt32)
  | .command c seq _ _ => some (c, seq)
  | .other _ => none

namespace Pipeline

open Framing (stream)

-- The commands of the client, each at the step that processes a request, between the other
-- steps of the daemon. What the socket does is left out.
def executed : List (Command × UInt32) → List PipeAct → Option (List CommandAct)
  | _, [] => some []
  | [], .process _ _ _ :: _ => none
  | command :: commands, .process _ host block :: acts =>
      (executed commands acts).map (.command command.1 command.2 host block :: ·)
  | commands, .system act :: acts => (executed commands acts).map (.other act :: ·)
  | commands, .recv _ :: acts => executed commands acts
  | commands, .socket _ :: acts => executed commands acts

theorem executed_says (lib : Externs) (acts : List PipeAct) (sysActs : List SysAct)
    (hruns : List.Forall₂ Runs (acts.filter PipeAct.daemon) sysActs)
    (done rest : List (Command × UInt32))
    (hasks : List.Forall₂ (AsksFor lib) done (requestPackets sysActs)) :
    ∃ cmds, executed (done ++ rest) acts = some cmds ∧ List.Forall₂ (Says lib) cmds sysActs ∧
      cmds.filterMap CommandAct.request = done := by
  induction acts generalizing sysActs done with
  | nil =>
      cases hruns
      cases hasks
      exact ⟨[], by simp [executed], .nil, rfl⟩
  | cons act acts ih =>
      cases act with
      | recv om => simpa [executed] using ih sysActs hruns done hasks
      | socket move => simpa [executed] using ih sysActs hruns done hasks
      | process junk host block =>
          cases hruns with
          | cons hrun hlater =>
              cases hrun with
              | process packet =>
                  cases hasks with
                  | @cons command _ done _ hfirst hothers =>
                      obtain ⟨cmds, hcmds, hsays, hdone⟩ := ih _ hlater done hothers
                      refine ⟨.command command.1 command.2 host block :: cmds,
                        by simp [executed, hcmds], .cons ?_ hsays, ?_⟩
                      · exact .command command.1 command.2 packet junk host block hfirst
                      · simp [CommandAct.request, hdone]
      | system act =>
          cases hruns with
          | @cons _ _ _ sysActs hrun hlater =>
              cases hrun with
              | system act hact =>
                  have hothers : List.Forall₂ (AsksFor lib) done (requestPackets sysActs) := by
                    rw [requestPackets, List.filterMap_cons_none hact] at hasks
                    exact hasks
                  obtain ⟨cmds, hcmds, hsays, hdone⟩ := ih sysActs hlater done hothers
                  exact ⟨.other act :: cmds, by simp [executed, hcmds], .cons (.other act) hsays,
                    hdone⟩

-- The client's bytes, cut into reads in any way, make the daemon execute the commands that they
-- are the text of, each once and in order: at every point the state of the daemon, with all
-- that it has put on its queue, is that of the commands.
theorem commands_executed (lib : Externs)
    (hstr : ∀ value, lib.uuidToStr (.u128 value) = canonicalUuid (.u128 value))
    (commands : List (Command × UInt32)) (messages : List Mbuf)
    (hasks : List.Forall₂ (AsksFor lib) commands messages)
    (hfit : ∀ message ∈ messages, Fits message) (acts : List PipeAct) (later : List Mbuf)
    (hcut : (reads acts ++ later).flatten = stream lengthHeader messages)
    (hwhole : ¬SplitsLength messages (reads acts ++ later)) (p : Pipeline)
    (hrun : Transition.run (step lib) initial acts = some p) :
    ∃ cmds, executed commands acts = some cmds ∧
      Transition.run (CommandAct.step lib) System.initial cmds = some p.sys ∧
      (later.flatten = [] → p.reader.reqMq = [] →
        cmds.filterMap CommandAct.request = commands) := by
  obtain ⟨sysActs, hsys, hreading, hruns⟩ := run_tracked lib acts p hrun
  obtain ⟨rest, hmessages, hsettled⟩ := hreading messages later hfit hcut hwhole
  rw [hmessages, List.append_assoc] at hasks
  have hdone := List.forall₂_take_append commands _ _ hasks
  obtain ⟨cmds, hcmds, hsays, hrequests⟩ := executed_says lib acts sysActs hruns
    (commands.take (requestPackets sysActs).length) (commands.drop (requestPackets sysActs).length)
    hdone
  rw [List.take_append_drop] at hcmds
  refine ⟨cmds, hcmds, ?_, ?_⟩
  · rw [← run_says lib hstr cmds sysActs hsays]
    exact hsys
  · intro hnone hempty
    rw [hnone] at hsettled
    obtain ⟨rfl, -⟩ := hsettled.of_nil
    rw [hempty, List.append_nil, List.append_nil] at hasks
    rw [hrequests, ← hasks.length_eq, List.take_length]

def pairCommands : List (Command × UInt32) :=
  [(.discAllChrs ⟨1, 10, 20⟩, 7), (.exchangeMtu 1, 8)]

theorem pair_asked : List.Forall₂ (AsksFor pairExterns) pairCommands [[7], [8]] := by
  have hdisc : AsksFor pairExterns (.discAllChrs ⟨1, 10, 20⟩, 7) [7] :=
    ⟨trivial, by decide, discChrsRequest, rfl,
      request_written canonicalUuid (.discAllChrs ⟨1, 10, 20⟩) 7⟩
  have hmtu : AsksFor pairExterns (.exchangeMtu 1, 8) [8] :=
    ⟨trivial, by decide, mtuRequest, rfl, request_written canonicalUuid (.exchangeMtu 1) 8⟩
  exact .cons hdisc (.cons hmtu .nil)

theorem commands_executed_pair : ∃ (p : Pipeline) (cmds : List CommandAct),
    executed pairCommands pairActs = some cmds ∧
      Transition.run (CommandAct.step pairExterns) System.initial cmds = some p.sys ∧
      cmds.filterMap CommandAct.request = pairCommands := by
  obtain ⟨p, hp, hempty⟩ := pair_processed
  obtain ⟨cmds, hcmds, hrun, hall⟩ := commands_executed pairExterns (fun _ => rfl)
    pairCommands [[7], [8]] pair_asked pair_fits pairActs [] rfl pair_whole p hp
  exact ⟨p, cmds, hcmds, hrun, hall rfl hempty⟩

end Pipeline

end Blehostd
