import Mathlib.Logic.Function.Basic
import Blehostd.Os
import Blehostd.Ble
import Blehostd.Library.SlotTable

namespace Blehostd

def BHD_SEQ_EVT_MIN : UInt32 := 0xffffff00
def BHD_SEQ_MAX : UInt32 := 0xfffffff0

-- bhd_next_evt_seq, with the static next_seq passed in and out.
def nextEvtSeq (next : UInt32) : UInt32 × UInt32 :=
  (next, if BHD_SEQ_MAX < next + 1 then BHD_SEQ_EVT_MIN else next + 1)

-- What stops the program: an assert that fails, or an access through a NULL
-- pointer or outside of its array.
inductive Fault where
  | assertion
  | nullPointer
  | outOfBounds
deriving DecidableEq, Repr

def require (condition : Prop) [Decidable condition] (fault : Fault) : Except Fault Unit :=
  if condition then .ok () else .error fault

theorem require_ok (condition : Prop) [Decidable condition] (fault : Fault) (u : Unit) :
    require condition fault = .ok u ↔ condition := by
  by_cases h : condition <;> simp [require, h]

theorem bind_ok {α β : Type} (x : Except Fault α) (f : α → Except Fault β) (result : β) :
    (x >>= f) = .ok result ↔ ∃ a, x = .ok a ∧ f a = .ok result := by
  cases x with
  | error fault => simp [Bind.bind, Except.bind]
  | ok a => simp [Bind.bind, Except.bind]

namespace Gatts

def BHD_GATTS_MAX_SVCS : Nat := 32
def BHD_GATTS_MAX_CHRS : Nat := 512
def BHD_GATTS_MAX_DSCS : Nat := 2048
def BHD_GATTS_MAX_UUIDS : Nat := BHD_GATTS_MAX_SVCS + BHD_GATTS_MAX_CHRS + BHD_GATTS_MAX_DSCS
def BHD_GATTS_MAX_VAL_HANDLES : Nat := BHD_GATTS_MAX_CHRS

-- The decoded services of an add_svcs request.
structure Dsc where
  uuid : UuidAny
  attFlags : UInt8
  minKeySize : UInt8
deriving DecidableEq, Repr

structure Chr where
  uuid : Uuid
  flags : UInt16
  minKeySize : UInt8
  dscs : List Dsc
deriving DecidableEq, Repr

structure Svc where
  type : SvcType
  uuid : Uuid
  chrs : List Chr
deriving DecidableEq, Repr

-- The definition records. A pointer into a table is the number of its slot, and
-- access_cb is either bhd_gatts_access or NULL.
structure DscDef where
  uuid : Option Nat
  attFlags : UInt8
  minKeySize : UInt8
  accessCb : Bool
  arg : UInt32
deriving DecidableEq, Repr

structure ChrDef where
  uuid : Option Nat
  flags : UInt16
  minKeySize : UInt8
  accessCb : Bool
  arg : UInt32
  valHandle : Option Nat
  descriptors : Option Nat
deriving DecidableEq, Repr

structure SvcDef where
  type : UInt8
  uuid : Option Nat
  characteristics : Option Nat
deriving DecidableEq, Repr

def DscDef.zero : DscDef := ⟨none, 0, 0, false, 0⟩

def ChrDef.zero : ChrDef := ⟨none, 0, 0, false, 0, none, none⟩

def SvcDef.zero : SvcDef := ⟨0, none, none⟩

-- The tables with their counters, and the counter of bhd_next_evt_seq.
structure State where
  svcs : Nat → SvcDef
  chrs : Nat → ChrDef
  dscs : Nat → DscDef
  uuids : Nat → UuidAny
  valHandles : Nat → UInt16
  numSvcs : Nat
  numChrs : Nat
  numDscs : Nat
  numUuids : Nat
  numValHandles : Nat
  nextSeq : UInt32

def State.zeroed (nextSeq : UInt32) : State :=
  ⟨fun _ => SvcDef.zero, fun _ => ChrDef.zero, fun _ => DscDef.zero, fun _ => UuidAny.zero,
    fun _ => 0, 0, 0, 0, 0, 0, nextSeq⟩

def State.initial : State := State.zeroed BHD_SEQ_EVT_MIN

structure Resources where
  svcs : Nat
  chrs : Nat
  dscs : Nat
  uuids : Nat
  valHandles : Nat
deriving DecidableEq, Repr

def cntDscs (numDscs : Nat) (chr : Chr) : Nat :=
  let numDscs := numDscs + chr.dscs.length
  if 0 < chr.dscs.length then numDscs + 1 else numDscs

-- The terminator is counted when any characteristic was counted so far, also
-- in a service that has none itself.
def cntSvc (cnt : Resources) (svc : Svc) : Resources :=
  let numChrs := cnt.chrs + svc.chrs.length
  { cnt with
    chrs := if 0 < numChrs then numChrs + 1 else numChrs
    dscs := svc.chrs.foldl cntDscs cnt.dscs
    valHandles := cnt.valHandles + svc.chrs.length }

def cntResources (svcs : List Svc) : Resources :=
  let cnt := svcs.foldl cntSvc ⟨svcs.length + 1, 0, 0, 0, 0⟩
  { cnt with uuids := cnt.svcs + cnt.chrs + cnt.dscs }

def verifyResourceCnt (svcs : List Svc) (s : State) : Int :=
  let cnt := cntResources svcs
  if BHD_GATTS_MAX_SVCS < s.numSvcs + cnt.svcs then BLE_HS_ENOMEM
  else if BHD_GATTS_MAX_CHRS < s.numChrs + cnt.chrs then BLE_HS_ENOMEM
  else if BHD_GATTS_MAX_DSCS < s.numDscs + cnt.dscs then BLE_HS_ENOMEM
  else if BHD_GATTS_MAX_UUIDS < s.numUuids + cnt.uuids then BLE_HS_ENOMEM
  else if BHD_GATTS_MAX_VAL_HANDLES < s.numValHandles + cnt.valHandles then BLE_HS_ENOMEM
  else 0

def saveUuid (src : UuidAny) (s : State) : Except Fault (Nat × State) := do
  require (s.numUuids < BHD_GATTS_MAX_UUIDS) .assertion
  .ok (s.numUuids, { s with
    uuids := Function.update s.uuids s.numUuids src
    numUuids := s.numUuids + 1 })

def saveDsc (dsc : Dsc) (s : State) : Except Fault State := do
  require (s.numDscs < BHD_GATTS_MAX_DSCS) .assertion
  let (dstu, s) ← saveUuid dsc.uuid s
  let (seq, nextSeq) := nextEvtSeq s.nextSeq
  let dstd : DscDef :=
    { uuid := some dstu
      attFlags := dsc.attFlags
      minKeySize := dsc.minKeySize
      accessCb := true
      arg := seq }
  .ok { s with
    dscs := Function.update s.dscs s.numDscs dstd
    nextSeq := nextSeq
    numDscs := s.numDscs + 1 }

-- The descriptors with the null terminator after them, which is skipped.
def saveDscs (dscs : List Dsc) (s : State) : Except Fault State := do
  let s ← dscs.foldlM (fun s dsc => saveDsc dsc s) s
  require (s.numDscs < BHD_GATTS_MAX_DSCS) .outOfBounds
  .ok { s with numDscs := s.numDscs + 1 }

def saveChr (chr : Chr) (s : State) : Except Fault State := do
  require (s.numChrs < BHD_GATTS_MAX_CHRS) .assertion
  let (dstu, s) ← saveUuid (.known chr.uuid) s
  let (seq, nextSeq) := nextEvtSeq s.nextSeq
  require (s.numValHandles < BHD_GATTS_MAX_VAL_HANDLES) .outOfBounds
  -- Without descriptors the pointer keeps what the slot held before.
  let dstc : ChrDef :=
    { uuid := some dstu
      flags := chr.flags
      minKeySize := chr.minKeySize
      accessCb := true
      arg := seq
      valHandle := some s.numValHandles
      descriptors :=
        if 0 < chr.dscs.length then some s.numDscs else (s.chrs s.numChrs).descriptors }
  let s := { s with
    chrs := Function.update s.chrs s.numChrs dstc
    nextSeq := nextSeq
    numValHandles := s.numValHandles + 1 }
  let s ← (if 0 < chr.dscs.length then saveDscs chr.dscs s else .ok s)
  .ok { s with numChrs := s.numChrs + 1 }

-- The characteristics with the null terminator after them, which is skipped.
def saveChrs (chrs : List Chr) (s : State) : Except Fault State := do
  let s ← chrs.foldlM (fun s chr => saveChr chr s) s
  require (s.numChrs < BHD_GATTS_MAX_CHRS) .outOfBounds
  .ok { s with numChrs := s.numChrs + 1 }

def saveSvc (svc : Svc) (s : State) : Except Fault State := do
  require (s.numSvcs < BHD_GATTS_MAX_SVCS) .assertion
  let (dstu, s) ← saveUuid (.known svc.uuid) s
  let dsts : SvcDef :=
    { type := svc.type.code
      uuid := some dstu
      characteristics :=
        if 0 < svc.chrs.length then some s.numChrs else (s.svcs s.numSvcs).characteristics }
  let s := { s with svcs := Function.update s.svcs s.numSvcs dsts }
  let s ← (if 0 < svc.chrs.length then saveChrs svc.chrs s else .ok s)
  .ok { s with numSvcs := s.numSvcs + 1 }

-- bhd_gatts_clear_svcs does not look at the result of ble_gatts_reset, and the
-- status stays at the 0 of the cleared response.
def clearSvcs (_reset : Int) (s : State) : Int × State :=
  (0, { s with numSvcs := 0, numChrs := 0, numDscs := 0, numUuids := 0, numValHandles := 0 })

-- The status of the response, which is cleared before, with the new tables.
def addSvcs (svcs : List Svc) (s : State) : Except Fault (Int × State) := do
  let rc := verifyResourceCnt svcs s
  if rc = 0 then
    let s ← svcs.foldlM (fun s svc => saveSvc svc s) s
    require (s.numSvcs < BHD_GATTS_MAX_SVCS) .outOfBounds
    .ok (0, { s with numSvcs := s.numSvcs + 1 })
  else
    .ok (rc, s)

end Gatts

end Blehostd
