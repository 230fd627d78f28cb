import Blehostd.Outgoing.Theorems
import Blehostd.Pipeline
import Blehostd.Stream.Theorems
import Blehostd.System.Attribution

namespace Blehostd

open Framing (stream)

def PipeAct.read : PipeAct → Option Mbuf
  | .recv om => some om
  | _ => none

-- The steps that the daemon itself takes.
def PipeAct.daemon : PipeAct → Bool
  | .process _ _ _ => true
  | .system _ => true
  | _ => false

-- A step of the daemon puts one message on the queue at most.
def Puts (old new : List Mbuf) : Prop :=
  new = old ∨ ∃ json, json.length ≤ BLEHOSTD_MAX_MSG_SZ ∧ new = old ++ [rspFrame json]

theorem enqueueRsp_puts (json : Text) (rspMq : List Mbuf) :
    Puts rspMq (enqueueRsp json rspMq).2 := by
  unfold enqueueRsp
  split_ifs with hlong
  · exact Or.inl rfl
  · exact Or.inr ⟨json, by omega, rfl⟩

theorem rspSend_puts (lib : Externs) (rsp : Rsp) (rspMq : List Mbuf) (result : Int × List Mbuf)
    (h : rspSend lib rsp rspMq = .ok result) : Puts rspMq result.2 := by
  obtain ⟨root, -, hresult⟩ := (bind_ok _ _ _).mp h
  obtain rfl := Except.ok.inj hresult
  exact enqueueRsp_puts _ _

theorem evtSend_puts (lib : Externs) (evt : Evt) (rspMq : List Mbuf) (result : Int × List Mbuf)
    (h : evtSend lib evt rspMq = .ok result) : Puts rspMq result.2 := by
  obtain ⟨root, -, hresult⟩ := (bind_ok _ _ _).mp h
  obtain rfl := Except.ok.inj hresult
  exact enqueueRsp_puts _ _

theorem sendEvt_puts (lib : Externs) (evt : Option Evt) (s next : System)
    (h : System.sendEvt lib evt s = some next) : Puts s.put next.put := by
  cases evt with
  | none =>
      obtain rfl : s = next := Option.some.inj h
      exact Or.inl rfl
  | some evt =>
      obtain ⟨result, hresult, hnext⟩ := Option.bind_eq_some_iff.mp h
      cases hsend : evtSend lib evt s.put with
      | error fault => simp [hsend, Except.toOption] at hresult
      | ok sent =>
          obtain rfl : sent = result := by simpa [hsend, Except.toOption] using hresult
          obtain rfl := Option.some.inj hnext
          exact evtSend_puts lib evt s.put sent hsend

theorem sendEvtAsserted_puts (lib : Externs) (evt : Evt) (s next : System)
    (h : System.sendEvtAsserted lib evt s = some next) : Puts s.put next.put := by
  obtain ⟨result, hresult, hnext⟩ := Option.bind_eq_some_iff.mp h
  cases hsend : evtSend lib evt s.put with
  | error fault => simp [hsend, Except.toOption] at hresult
  | ok sent =>
      obtain rfl : sent = result := by simpa [hsend, Except.toOption] using hresult
      obtain ⟨-, hnext⟩ := Option.ite_none_right_eq_some.mp hnext
      obtain rfl := Option.some.inj hnext
      exact evtSend_puts lib evt s.put sent hsend

-- One case for each action.
theorem System.step_puts (lib : Externs) (s next : System) (act : SysAct)
    (h : System.step lib s act = some next) : Puts s.put next.put := by
  cases act with
  | request packet junk host block =>
      left
      cases hpending : s.pending with
      | some rsp => simp [System.step, hpending] at h
      | none =>
          simp only [System.step, hpending] at h
          obtain ⟨outcome, -, h⟩ := Option.bind_eq_some_iff.mp h
          obtain ⟨started, -, h⟩ := Option.bind_eq_some_iff.mp h
          obtain rfl := Option.some.inj h
          rfl
  | respond =>
      obtain ⟨rsp, -, h⟩ := Option.bind_eq_some_iff.mp h
      obtain ⟨result, hresult, hnext⟩ := Option.bind_eq_some_iff.mp h
      cases hsend : rspSend lib rsp s.put with
      | error fault => simp [hsend, Except.toOption] at hresult
      | ok sent =>
          obtain rfl : sent = result := by simpa [hsend, Except.toOption] using hresult
          obtain rfl := Option.some.inj hnext
          exact rspSend_puts lib rsp s.put sent hsend
  | callback i host input =>
      obtain ⟨cb, -, h⟩ := Option.bind_eq_some_iff.mp h
      obtain ⟨⟨outcome, heap⟩, -, h⟩ := Option.bind_eq_some_iff.mp h
      have hputs := sendEvt_puts lib _ _ next h
      exact hputs
  | sync synced =>
      simp only [System.step] at h
      have hputs := sendEvtAsserted_puts lib _ _ next h
      exact hputs
  | reset reason =>
      simp only [System.step] at h
      have hputs := sendEvtAsserted_puts lib _ _ next h
      exact hputs
  | access attr host accessOp connHandle attrHandle om =>
      obtain ⟨seq, -, h⟩ := Option.bind_eq_some_iff.mp h
      exact sendEvt_puts lib _ s next h
  | accessWake =>
      obtain ⟨world, -, h⟩ := Option.bind_eq_some_iff.mp h
      obtain rfl := Option.some.inj h
      exact Or.inl rfl
  | accessReset =>
      obtain rfl := Option.some.inj h
      exact Or.inl rfl

-- What the daemon puts comes onto the queue as blehostd_enqueue_rsp has it.
theorem flush_puts (out : Outgoing) (old new : System) (h : Puts old.put new.put) :
    (out.flush old new = out ∧ new.put = old.put) ∨
    ∃ json, out.step (.enqueue json) = some (out.flush old new) ∧
      new.put = old.put ++ [rspFrame json] := by
  rcases h with hsame | ⟨json, hjson, hput⟩
  · left
    exact ⟨by simp [Outgoing.flush, hsame], hsame⟩
  · right
    refine ⟨json, ?_, hput⟩
    have hlong : ¬BLEHOSTD_MAX_MSG_SZ < json.length := by omega
    simp [Outgoing.step, enqueueRsp, hlong, Outgoing.flush, hput, Outgoing.putFrame]

namespace Pipeline

-- What a step does to the daemon and to its queue of messages: nothing, or one step of each
-- where the daemon puts a message.
inductive Moves (lib : Externs) (p next : Pipeline) : PipeAct → Prop where
  | recv (om : Mbuf) (hreader : next.reader = socketReadable (fun _ => Alloc.ok) om p.reader)
      (hsys : next.sys = p.sys) (hout : next.out = p.out) : Moves lib p next (.recv om)
  | process (packet : Mbuf) (junk : Junk) (host : Host) (block : Nat) (rest : List Mbuf)
      (hqueue : p.reader.reqMq = packet :: rest)
      (hreader : next.reader = { p.reader with reqMq := rest })
      (hsys : System.step lib p.sys (.request packet junk host block) = some next.sys)
      (hout : next.out = p.out.flush p.sys next.sys) : Moves lib p next (.process junk host block)
  | system (act : SysAct) (hact : act.packet = none) (hreader : next.reader = p.reader)
      (hsys : System.step lib p.sys act = some next.sys)
      (hout : next.out = p.out.flush p.sys next.sys) : Moves lib p next (.system act)
  | socket (act : SendAct) (hact : ∀ json, act ≠ .enqueue json) (hreader : next.reader = p.reader)
      (hsys : next.sys = p.sys) (hout : p.out.step act = some next.out) :
      Moves lib p next (.socket act)

theorem step_moves (lib : Externs) (p next : Pipeline) (act : PipeAct)
    (h : step lib p act = some next) : Moves lib p next act := by
  cases act with
  | recv om =>
      obtain rfl := Option.some.inj h
      exact .recv om rfl rfl rfl
  | process junk host block =>
      cases hqueue : p.reader.reqMq with
      | nil => simp [step, hqueue] at h
      | cons packet rest =>
          simp only [step, hqueue] at h
          obtain ⟨sys, hsys, h⟩ := Option.bind_eq_some_iff.mp h
          obtain rfl := Option.some.inj h
          exact .process packet junk host block rest hqueue rfl hsys rfl
  | system act =>
      cases act with
      | request packet junk host block => cases h
      | _ =>
          simp only [step] at h
          obtain ⟨sys, hsys, h⟩ := Option.bind_eq_some_iff.mp h
          obtain rfl := Option.some.inj h
          exact .system _ rfl rfl hsys rfl
  | socket act =>
      cases act with
      | enqueue json => cases h
      | _ =>
          simp only [step] at h
          obtain ⟨out, hout, h⟩ := Option.bind_eq_some_iff.mp h
          obtain rfl := Option.some.inj h
          exact .socket _ nofun rfl rfl hout

-- No task takes a message from the queue while the other has one in hand.
def Alone (p : Pipeline) : PipeAct → Prop
  | .socket act => p.out.Alone act
  | _ => True

-- The queue stays as it is, or takes a step of its own.
theorem step_out (lib : Externs) (p : Pipeline) (act : PipeAct) (next : Pipeline)
    (h : step lib p act = some next) :
    next.out = p.out ∨
    ∃ move, p.out.step move = some next.out ∧ (p.Alone act → p.out.Alone move) := by
  cases step_moves lib p next act h with
  | recv om hreader hsys hout => exact Or.inl hout
  | process packet junk host block rest hqueue hreader hsys hout =>
      rw [hout]
      rcases flush_puts p.out p.sys next.sys (System.step_puts lib _ _ _ hsys) with
        ⟨hsame, -⟩ | ⟨json, hjson, -⟩
      · exact Or.inl hsame
      · exact Or.inr ⟨_, hjson, fun _ => trivial⟩
  | system act hact hreader hsys hout =>
      rw [hout]
      rcases flush_puts p.out p.sys next.sys (System.step_puts lib _ _ _ hsys) with
        ⟨hsame, -⟩ | ⟨json, hjson, -⟩
      · exact Or.inl hsame
      · exact Or.inr ⟨_, hjson, fun _ => trivial⟩
  | socket act hact hreader hsys hout => exact Or.inr ⟨act, hout, id⟩

theorem run_complete (lib : Externs) (acts : List PipeAct) (p : Pipeline)
    (hrun : Transition.run (step lib) initial acts = some p) : p.out.Complete := by
  have hstep : ∀ s act next, Outgoing.Complete s.out → step lib s act = some next →
      next.out.Complete := by
    intro s act next hs hnext
    rcases step_out lib s act next hnext with hsame | ⟨move, hmove, -⟩
    · rw [hsame]
      exact hs
    · exact Outgoing.complete_step s.out move next.out hs hmove
  have hinitial : initial.out.Complete := List.Perm.refl _
  exact Transition.run_keeps (fun s act next => hstep s act next) initial p acts hinitial hrun

theorem run_inOrder (lib : Externs) (acts : List PipeAct) (p : Pipeline)
    (halone : Transition.Meets (step lib) Alone initial acts)
    (hrun : Transition.run (step lib) initial acts = some p) : p.out.InOrder := by
  have hstep : ∀ s act next, Outgoing.InOrder s.out → s.Alone act → step lib s act = some next →
      next.out.InOrder := by
    intro s act next hs ha hnext
    rcases step_out lib s act next hnext with hsame | ⟨move, hmove, hmoveAlone⟩
    · rw [hsame]
      exact hs
    · exact Outgoing.inOrder_step s.out move next.out hs (hmoveAlone ha) hmove
  exact Transition.run_invariant hstep initial p acts Outgoing.inOrder_initial halone hrun

theorem putFrame_put (s : Outgoing) (om : Mbuf) : (s.putFrame om).put = s.put ++ [om] := by
  obtain ⟨posted, hpost⟩ := Outgoing.post_eq
    { s with rspMq := s.rspMq ++ [om], put := s.put ++ [om] } .blehostd
  rw [Outgoing.putFrame, hpost]

theorem flush_put (out : Outgoing) (old new : System) (hput : out.put = old.put)
    (h : Puts old.put new.put) : (out.flush old new).put = new.put := by
  rcases h with hsame | ⟨json, -, happend⟩
  · simp [Outgoing.flush, hsame, hput]
  · simp [Outgoing.flush, happend, putFrame_put, hput]

theorem socket_put (s next : Outgoing) (act : SendAct) (hact : ∀ json, act ≠ .enqueue json)
    (h : s.step act = some next) : next.put = s.put := by
  cases Outgoing.step_moves s act next h with
  | enqueued json om hput htaken hqueue hhand => exact absurd rfl (hact json)
  | kept act hput htaken hqueue hhand => exact hput
  | got t om hands hput htaken hqueue => exact hput
  | sent t om hands hput htaken hqueue => exact hput
  | reinserted t om hands hput htaken hqueue => exact hput

-- A message is put once, by the daemon.
theorem step_put (lib : Externs) (p : Pipeline) (act : PipeAct) (next : Pipeline)
    (hput : p.out.put = p.sys.put) (h : step lib p act = some next) :
    next.out.put = next.sys.put := by
  cases step_moves lib p next act h with
  | recv om hreader hsys hout => rw [hout, hsys, hput]
  | process packet junk host block rest hqueue hreader hsys hout =>
      rw [hout]
      exact flush_put p.out p.sys next.sys hput (System.step_puts lib _ _ _ hsys)
  | system act hact hreader hsys hout =>
      rw [hout]
      exact flush_put p.out p.sys next.sys hput (System.step_puts lib _ _ _ hsys)
  | socket act hact hreader hsys hout =>
      rw [socket_put p.out next.out act hact hout, hsys, hput]

-- The reads so far.
def reads (acts : List PipeAct) : List Mbuf :=
  acts.filterMap PipeAct.read

-- What the requests and reads so far have left in the reader, whatever is read later, as
-- long as no length is split.
def Reading (past : List PipeAct) (sysActs : List SysAct) (p : Pipeline) : Prop :=
  ∀ (messages later : List Mbuf), (∀ message ∈ messages, Fits message) →
    (reads past ++ later).flatten = stream lengthHeader messages →
    ¬SplitsLength messages (reads past ++ later) →
    ∃ rest : List Mbuf, messages = requestPackets sysActs ++ p.reader.reqMq ++ rest ∧
      Settled rest p.reader later.flatten

-- The step that the daemon takes in a step of the pipeline.
inductive Runs : PipeAct → SysAct → Prop where
  | process (packet : Mbuf) (junk : Junk) (host : Host) (block : Nat) :
      Runs (.process junk host block) (.request packet junk host block)
  | system (act : SysAct) (hact : act.packet = none) : Runs (.system act) act

-- The daemon of the pipeline is at the end of a run of its own.
def Tracked (lib : Externs) (past : List PipeAct) (p : Pipeline) : Prop :=
  ∃ sysActs : List SysAct,
    Transition.run (System.step lib) System.initial sysActs = some p.sys ∧
    Reading past sysActs p ∧ List.Forall₂ Runs (past.filter PipeAct.daemon) sysActs

theorem reads_append (first rest : List PipeAct) :
    reads (first ++ rest) = reads first ++ reads rest :=
  List.filterMap_append

-- A step that reads nothing.
theorem Reading.later {past : List PipeAct} {sysActs : List SysAct} {p : Pipeline}
    (h : Reading past sysActs p) (act : PipeAct) (more : List SysAct) (next : Pipeline)
    (hread : act.read = none) (hqueue : requestPackets more ++ next.reader.reqMq = p.reader.reqMq)
    (hpacket : next.reader.packet = p.reader.packet)
    (hlen : next.reader.packetLen = p.reader.packetLen) :
    Reading (past ++ [act]) (sysActs ++ more) next := by
  intro messages later hfit hcut hwhole
  have hreads : reads (past ++ [act]) = reads past := by
    rw [reads_append]
    simp [reads, hread]
  rw [hreads] at hcut hwhole
  obtain ⟨rest, hmessages, hsettled⟩ := h messages later hfit hcut hwhole
  refine ⟨rest, ?_, ?_⟩
  · rw [hmessages, requestPackets_append, ← hqueue]
    simp
  · unfold Settled Reader.buffered at hsettled ⊢
    rw [hpacket, hlen]
    exact hsettled

theorem Reading.recv {past : List PipeAct} {sysActs : List SysAct} {p : Pipeline}
    (h : Reading past sysActs p) (om : Mbuf) (next : Pipeline)
    (hreader : next.reader = socketReadable (fun _ => Alloc.ok) om p.reader) :
    Reading (past ++ [.recv om]) sysActs next := by
  intro messages later hfit hcut hwhole
  have hreads : reads (past ++ [.recv om]) ++ later = reads past ++ om :: later := by
    rw [reads_append]
    simp [reads, PipeAct.read]
  rw [hreads] at hcut hwhole
  obtain ⟨rest, hmessages, hsettled⟩ := h messages (om :: later) hfit hcut hwhole
  have hrest : ∀ message ∈ rest, Fits message := by
    intro message hmem
    apply hfit message
    rw [hmessages]
    exact List.mem_append_right _ hmem
  rcases socketReadable_aligned rest p.reader om later.flatten hrest hsettled.aligned with
    ⟨done, todo, rfl, hqueue, hnext⟩ | ⟨hhalf, -⟩
  · refine ⟨todo, ?_, ?_⟩
    · rw [hmessages, hreader, hqueue]
      simp
    · rw [hreader]
      exact hnext
  · -- The end of this read would split a length.
    exfalso
    apply hwhole
    rw [splitsLength_iff_halfLength messages _ hcut]
    refine ⟨reads past ++ [om], later, by simp, ?_⟩
    rw [hmessages]
    exact hhalf.prepend _

theorem step_tracked (lib : Externs) (past : List PipeAct) (p : Pipeline) (act : PipeAct)
    (next : Pipeline) (h : Tracked lib past p) (hstep : step lib p act = some next) :
    Tracked lib (past ++ [act]) next := by
  obtain ⟨sysActs, hrun, hreading, hruns⟩ := h
  unfold Tracked
  rw [List.filter_append]
  cases step_moves lib p next act hstep with
  | recv om hreader hsys hout =>
      refine ⟨sysActs, ?_, hreading.recv om next hreader, ?_⟩
      · rw [hsys]
        exact hrun
      · simpa [PipeAct.daemon] using hruns
  | process packet junk host block rest hqueue hreader hsys hout =>
      refine ⟨sysActs ++ [.request packet junk host block], Transition.run_snoc hrun hsys,
        hreading.later _ _ next rfl ?_ ?_ ?_,
        List.rel_append hruns (.cons (.process packet junk host block) .nil)⟩
      · rw [hqueue, hreader]
        rfl
      · rw [hreader]
      · rw [hreader]
  | system act hact hreader hsys hout =>
      have hnone : requestPackets [act] = [] := by simp [requestPackets, hact]
      refine ⟨sysActs ++ [act], Transition.run_snoc hrun hsys,
        hreading.later _ _ next rfl ?_ ?_ ?_,
        List.rel_append hruns (.cons (.system act hact) .nil)⟩
      · rw [hnone, hreader, List.nil_append]
      · rw [hreader]
      · rw [hreader]
  | socket act hact hreader hsys hout =>
      have hsame := hreading.later (.socket act) [] next rfl (by rw [hreader]; rfl)
        (by rw [hreader]) (by rw [hreader])
      rw [List.append_nil] at hsame
      refine ⟨sysActs, ?_, hsame, ?_⟩
      · rw [hsys]
        exact hrun
      · simpa [PipeAct.daemon] using hruns

theorem tracked_initial (lib : Externs) : Tracked lib [] initial := by
  refine ⟨[], rfl, ?_, .nil⟩
  intro messages later _ hcut _
  exact ⟨messages, rfl, Or.inl ⟨rfl, hcut, Or.inl rfl⟩⟩

theorem run_tracked (lib : Externs) (acts : List PipeAct) (p : Pipeline)
    (hrun : Transition.run (step lib) initial acts = some p) : Tracked lib acts p := by
  have hmeets : Transition.Meets (step lib) (fun _ _ => True) initial acts :=
    Transition.meets_of_forall (fun _ _ => trivial) _ acts
  exact Transition.run_history (tracked_initial lib)
    (fun past p act next h _ hstep => step_tracked lib past p act next h hstep) hmeets hrun

-- Where the messages of the client are, and those to the client, when the daemon has taken
-- the steps given and its service has got to t.
structure Served (lib : Externs) (messages : List Mbuf) (p : Pipeline) (sysActs : List SysAct)
    (t : Service) : Prop where
  requests : requestPackets sysActs ++ p.reader.reqMq <+: messages
  answers : List.Forall₂ (AnswersPacket lib) (requestPackets sysActs)
    (responses t.sent ++ p.sys.pending.toList)
  queued : ∀ rsp, Message.rsp rsp ∈ t.sent → rsp.hdr.type ≠ .commitSvcs →
    ∃ frame, Message.frames lib (.rsp rsp) = [frame]
  events : ∀ evt, Message.evt evt ∈ t.sent → evt.Caused lib sysActs
  put : p.out.put = t.sent.flatMap (Message.frames lib)
  complete : p.out.Complete

-- From the bytes of the client to those of the daemon: each message is processed once and in
-- order, one response is made for each in that order, and all that the daemon puts is sent, on
-- the queue or in the hand of a task.
theorem run_served (lib : Externs) (hlib : lib.Prints) (messages : List Mbuf)
    (hfit : ∀ message ∈ messages, Fits message) (acts : List PipeAct) (later : List Mbuf)
    (hcut : (reads acts ++ later).flatten = stream lengthHeader messages)
    (hwhole : ¬SplitsLength messages (reads acts ++ later)) (p : Pipeline)
    (hrun : Transition.run (step lib) initial acts = some p) :
    ∃ (sysActs : List SysAct) (t : Service),
      Transition.run (System.step lib) System.initial sysActs = some p.sys ∧
      Transition.run (Service.step lib) Service.initial sysActs = some t ∧
      Served lib messages p sysActs t ∧
      (later.flatten = [] → requestPackets sysActs ++ p.reader.reqMq = messages) ∧
      (Transition.Meets (step lib) Alone initial acts → p.out.taken <+: p.out.put) := by
  obtain ⟨sysActs, hsys, hreading, -⟩ := run_tracked lib acts p hrun
  obtain ⟨rest, hmessages, hsettled⟩ := hreading messages later hfit hcut hwhole
  obtain ⟨t, ht, hR⟩ := run_refines lib hlib sysActs p.sys hsys
  have hexplained := run_explained lib sysActs t ht
  have hput : p.out.put = p.sys.put :=
    Transition.run_keeps (fun p act next h hstep => step_put lib p act next h hstep)
      initial p acts rfl hrun
  refine ⟨sysActs, t, hsys, ht, ⟨?_, ?_, hexplained.queued hlib, ?_, ?_, ?_⟩, ?_, ?_⟩
  · rw [hmessages]
    exact List.prefix_append _ _
  · rw [hR.pending]
    exact hexplained.answers
  · intro evt hevt
    exact (hexplained.events evt hevt).2
  · rw [hput, hR.put]
  · exact run_complete lib acts p hrun
  · intro hnone
    rw [hnone] at hsettled
    obtain ⟨rfl, -⟩ := hsettled.of_nil
    rw [hmessages, List.append_nil]
  · intro halone
    exact Outgoing.inOrder_oldest p.out (run_inOrder lib acts p halone hrun)

-- Short messages have no length that could be split.
theorem not_splitsLength_short (messages chunks : List Mbuf)
    (hshort : ∀ message ∈ messages, message.length < 256) : ¬SplitsLength messages chunks := by
  rintro ⟨done, message, later, before, after, rfl, -, hlen, -⟩
  have hlt := hshort message (by simp)
  omega

def mtuRequest : Json :=
  .object [(ascii "op", .string (ascii "request")), (ascii "type", .string (ascii "exchange_mtu")),
    (ascii "seq", .number 8), (ascii "conn_handle", .number 1)]

-- The packet 8 asks for the MTU, any other one for the characteristics.
def pairExterns : Externs :=
  { discChrsExterns with
    parse := fun text => some (if text = [8] then mtuRequest else discChrsRequest) }

theorem pair_prints : pairExterns.Prints where
  print _ := rfl
  uuidToStr := canonicalUuid_length

-- Two messages, the second of which is cut. It is processed when the response of the first is
-- queued.
def pairActs : List PipeAct :=
  [.recv [0, 1, 7, 0, 1], .recv [8], .process zeroJunk acceptingHost 5, .system .respond,
    .process zeroJunk acceptingHost 6]

theorem pair_fits : ∀ message ∈ [[7], [8]], Fits message := by decide

theorem pair_whole : ¬SplitsLength [[7], [8]] [[0, 1, 7, 0, 1], [8]] :=
  not_splitsLength_short _ _ (by decide)

theorem pair_sys : ∃ sys, Transition.run (System.step pairExterns) System.initial
    [.request [7] zeroJunk acceptingHost 5, .respond, .request [8] zeroJunk acceptingHost 6] =
      some sys :=
  ⟨_, rfl⟩

theorem pair_processed : ∃ p,
    Transition.run (step pairExterns) initial pairActs = some p ∧ p.reader.reqMq = [] := by
  have hqueue : (socketReadable (fun _ => Alloc.ok) [8]
      (socketReadable (fun _ => Alloc.ok) [0, 1, 7, 0, 1] Reader.initial)).reqMq = [[7], [8]] := by
    rcases receive_initial [[7], [8]] [[0, 1, 7, 0, 1], [8]] pair_fits rfl with
      ⟨hdelivered, -⟩ | ⟨hsplits, -⟩
    · exact hdelivered.1
    · exact absurd hsplits pair_whole
  obtain ⟨sys, hsys⟩ := pair_sys
  obtain ⟨first, hfirst, hsys⟩ := Transition.run_cons hsys
  obtain ⟨second, hsecond, hsys⟩ := Transition.run_cons hsys
  obtain ⟨third, hthird, -⟩ := Transition.run_cons hsys
  simp [pairActs, Transition.run, step, initial, hqueue, hfirst, hsecond, hthird]

theorem run_served_pair : ∃ (p : Pipeline) (sysActs : List SysAct) (t : Service),
    p.reader.reqMq = [] ∧ requestPackets sysActs = [[7], [8]] ∧
    Served pairExterns [[7], [8]] p sysActs t := by
  obtain ⟨p, hp, hempty⟩ := pair_processed
  obtain ⟨sysActs, t, -, -, hserved, hall, -⟩ := run_served pairExterns pair_prints
    [[7], [8]] pair_fits pairActs [] rfl pair_whole p hp
  have hdone := hall rfl
  rw [hempty, List.append_nil] at hdone
  exact ⟨p, sysActs, t, hempty, hdone, hserved⟩

end Pipeline

end Blehostd
