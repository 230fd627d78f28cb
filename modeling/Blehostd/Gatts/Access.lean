import Blehostd.Os
import Blehostd.Library.Transition

namespace Blehostd

def BLE_ATT_ATTR_MAX_LEN : Nat := 512

def BLE_ATT_ERR_UNLIKELY : UInt8 := 0x0e

def BHD_GATTS_ACCESS_STATUS_NONE : UInt8 := 0xff

namespace Gatts

-- bhd_gatts_access_att_status, bhd_gatts_access_value with its length, and the
-- count of bhd_gatts_access_sem.
structure Access where
  attStatus : UInt8
  value : List UInt8
  valueLen : Nat
  sem : Nat
deriving DecidableEq, Repr

namespace Access

def initial : Access :=
  ⟨BHD_GATTS_ACCESS_STATUS_NONE, List.replicate BLE_ATT_ATTR_MAX_LEN 0, 0, 0⟩

-- The length is compared with a sizeof, which makes a negative one too large.
def clampLen (dataLen : Int) : Nat :=
  if dataLen < 0 ∨ (BLE_ATT_ATTR_MAX_LEN : Int) < dataLen then BLE_ATT_ATTR_MAX_LEN
  else dataLen.toNat

-- The critical section of bhd_gatts_set_access_result.
def store (attStatus : UInt8) (data : Option (List UInt8)) (dataLen : Int) (a : Access) :
    Int × Access :=
  if a.attStatus = BHD_GATTS_ACCESS_STATUS_NONE then
    match data with
    | none => (0, { a with attStatus := attStatus })
    | some bytes =>
        let len := clampLen dataLen
        (0, { a with
          attStatus := attStatus
          value := bytes.take len ++ a.value.drop len
          valueLen := len })
  else
    (SYS_ENOENT, a)

def semRelease (a : Access) : Access :=
  { a with sem := a.sem + 1 }

end Access

def setAccessResult (attStatus : UInt8) (data : Option (List UInt8)) (dataLen : Int) (a : Access) :
    Int × Access :=
  let stored := a.store attStatus data dataLen
  if stored.1 = 0 then (0, stored.2.semRelease) else stored

-- What the access_status handler passes on: its buffer holds at most as many
-- bytes as the attribute value.
structure Reply where
  attStatus : UInt8
  data : List UInt8
  fits : data.length ≤ BLE_ATT_ATTR_MAX_LEN
deriving DecidableEq, Repr

-- Where bhd_gatts_access and the wait inside it stand, with their locals. The
-- number is the accepted reply whose release ended the wait, if one did.
inductive Phase where
  | idle
  | pending (read : Bool)
  | woken (read : Bool) (reply : Nat)
  | loaded (read : Bool) (reply : Option Nat) (status : UInt8)
  | reset (read : Bool) (reply : Option Nat) (status : UInt8)
  | measured (read : Bool) (reply : Option Nat) (status : UInt8) (len : Nat)
deriving DecidableEq, Repr

-- An accepted reply and the callback that was in its wait at that moment.
structure Accepted where
  reply : Reply
  pending : Option Nat
deriving DecidableEq, Repr

structure Finished where
  read : Bool
  consumed : Option Nat
  status : UInt8
  data : Option (List UInt8)
deriving DecidableEq, Repr

-- The two tasks and their history. Callbacks are numbered in the order in
-- which they start, accepted replies in the order of their critical sections.
-- The releases and the wake-ups of the semaphore happen in that order too.
structure Exchange where
  access : Access
  host : Phase
  releasing : Bool
  answered : Nat
  wakes : Nat
  accepted : List Accepted
  finished : List Finished
deriving DecidableEq, Repr

inductive Act where
  | send (read : Bool)
  | wake
  | timeout
  | load
  | reset
  | measure
  | finish
  | reply (r : Reply)
  | release
deriving DecidableEq, Repr

namespace Exchange

def initial : Exchange := ⟨Access.initial, .idle, false, 0, 0, [], []⟩

-- The callback that is in os_sem_pend.
def waiter (s : Exchange) : Option Nat :=
  match s.host with
  | .pending _ => some s.finished.length
  | _ => none

def step (s : Exchange) : Act → Option Exchange
  | .send read =>
      match s.host with
      | .idle => some { s with host := .pending read }
      | _ => none
  | .wake =>
      match s.host with
      | .pending read =>
          if 0 < s.access.sem then
            some { s with
              access := { s.access with sem := s.access.sem - 1 }
              host := .woken read s.wakes
              wakes := s.wakes + 1 }
          else none
      | _ => none
  | .timeout =>
      match s.host with
      | .pending read =>
          if s.access.sem = 0 then some { s with host := .loaded read none BLE_ATT_ERR_UNLIKELY }
          else none
      | _ => none
  | .load =>
      match s.host with
      | .woken read reply =>
          some { s with host := .loaded read (some reply) s.access.attStatus }
      | _ => none
  | .reset =>
      match s.host with
      | .loaded read reply status =>
          some { s with
            access := { s.access with attStatus := BHD_GATTS_ACCESS_STATUS_NONE }
            host := .reset read reply status }
      | _ => none
  | .measure =>
      match s.host with
      | .reset read reply status =>
          some { s with host := .measured read reply status s.access.valueLen }
      | _ => none
  | .finish =>
      match s.host with
      | .measured read reply status len =>
          let data := if status = 0 ∧ read then some (s.access.value.take len) else none
          some { s with host := .idle, finished := s.finished ++ [⟨read, reply, status, data⟩] }
      | _ => none
  | .reply r =>
      if s.releasing then none
      else
        let stored := s.access.store r.attStatus (some r.data) r.data.length
        if stored.1 = 0 then
          some { s with
            access := stored.2
            releasing := true
            accepted := s.accepted ++ [⟨r, s.waiter⟩] }
        else some s
  | .release =>
      if s.releasing then
        some { s with
          access := s.access.semRelease
          releasing := false
          answered := s.answered + 1 }
      else none

def run (s : Exchange) (acts : List Act) : Option Exchange :=
  Transition.run step s acts

end Exchange

end Gatts

end Blehostd
