import Blehostd.Calls
import Blehostd.Library.Counted

namespace Blehostd

open Counted

-- struct ble_hs_adv_fields, with what its pointers point to. The addresses are one row
-- of bytes.
structure HsFields where
  flags : UInt8
  uuids16 : CountedPtr UInt16
  uuids16IsComplete : Bool
  uuids32 : CountedPtr UInt32
  uuids32IsComplete : Bool
  uuids128 : CountedPtr (Vector UInt8 16)
  uuids128IsComplete : Bool
  name : CountedPtr UInt8
  nameIsComplete : Bool
  txPwrLvl : Int8
  txPwrLvlIsPresent : Bool
  slaveItvlRange : Option (List UInt8)
  svcDataUuid16 : CountedPtr UInt8
  publicTgtAddr : CountedPtr UInt8
  appearance : UInt16
  appearanceIsPresent : Bool
  advItvl : UInt16
  advItvlIsPresent : Bool
  svcDataUuid32 : CountedPtr UInt8
  svcDataUuid128 : CountedPtr UInt8
  uri : CountedPtr UInt8
  mfgData : CountedPtr UInt8

-- The data_ members of struct bhd_scan_evt, which are declared like the members of
-- struct bhd_adv_fields_req.
structure AdvMembers where
  flags : UInt8
  uuids16 : Counted UInt16 (BLE_HS_ADV_MAX_FIELD_SZ / 2)
  uuids16IsComplete : Bool
  uuids32 : Counted UInt32 (BLE_HS_ADV_MAX_FIELD_SZ / 4)
  uuids32IsComplete : Bool
  uuids128 : Counted (Vector UInt8 16) (BLE_HS_ADV_MAX_FIELD_SZ / 16)
  uuids128IsComplete : Bool
  name : Counted UInt8 BLE_HS_ADV_MAX_FIELD_SZ
  nameIsComplete : Bool
  txPwrLvl : Int8
  txPwrLvlIsPresent : Bool
  slaveItvlMin : UInt16
  slaveItvlMax : UInt16
  slaveItvlRangeIsPresent : Bool
  svcDataUuid16 : Counted UInt8 BLE_HS_ADV_MAX_FIELD_SZ
  publicTgtAddrs : Counted Addr (BLE_HS_ADV_MAX_FIELD_SZ / 6)
  appearance : UInt16
  appearanceIsPresent : Bool
  advItvl : UInt16
  advItvlIsPresent : Bool
  svcDataUuid32 : Counted UInt8 BLE_HS_ADV_MAX_FIELD_SZ
  svcDataUuid128 : Counted UInt8 BLE_HS_ADV_MAX_FIELD_SZ
  uri : Counted UInt8 BLE_HS_ADV_MAX_FIELD_SZ
  mfgData : Counted UInt8 BLE_HS_ADV_MAX_FIELD_SZ

def AdvMembers.zero : AdvMembers :=
  { flags := 0
    uuids16 := .clear 0
    uuids16IsComplete := false
    uuids32 := .clear 0
    uuids32IsComplete := false
    uuids128 := .clear (Vector.replicate 16 0)
    uuids128IsComplete := false
    name := .clear 0
    nameIsComplete := false
    txPwrLvl := 0
    txPwrLvlIsPresent := false
    slaveItvlMin := 0
    slaveItvlMax := 0
    slaveItvlRangeIsPresent := false
    svcDataUuid16 := .clear 0
    publicTgtAddrs := .clear (Vector.replicate 6 0)
    appearance := 0
    appearanceIsPresent := false
    advItvl := 0
    advItvlIsPresent := false
    svcDataUuid32 := .clear 0
    svcDataUuid128 := .clear 0
    uri := .clear 0
    mfgData := .clear 0 }

def be16 (high low : UInt8) : UInt16 := UInt16.ofNat (high.toNat * 256 + low.toNat)

def getBe16 (buf : List UInt8) (off : Nat) : Option UInt16 := do
  let high ← buf[off]?
  let low ← buf[off + 1]?
  some (be16 high low)

-- The range of the event stays as it is when there is none.
def scanItvlRange (evt : AdvMembers) : Option (List UInt8) → Option (UInt16 × UInt16 × Bool)
  | none => some (evt.slaveItvlMin, evt.slaveItvlMax, evt.slaveItvlRangeIsPresent)
  | some range => do
      let min ← getBe16 range 0
      let max ← getBe16 range 2
      some (min, max, true)

-- What bhd_gap_send_scan_evt does with the fields of the report. The result is none when
-- it reads or writes outside of an array.
def sendScanFields (fields : HsFields) (evt : AdvMembers) : Option AdvMembers := do
  let uuids16 ← copyList fields.uuids16 evt.uuids16
  let uuids32 ← copyList fields.uuids32 evt.uuids32
  let uuids128 ← copyList fields.uuids128 evt.uuids128
  let name ← copyData fields.name evt.name
  let (slaveItvlMin, slaveItvlMax, slaveItvlRangeIsPresent) ←
    scanItvlRange evt fields.slaveItvlRange
  let svcDataUuid16 ← copyData fields.svcDataUuid16 evt.svcDataUuid16
  let publicTgtAddrs ← copyRows fields.publicTgtAddr evt.publicTgtAddrs
  let svcDataUuid32 ← copyData fields.svcDataUuid32 evt.svcDataUuid32
  let svcDataUuid128 ← copyData fields.svcDataUuid128 evt.svcDataUuid128
  let uri ← copyData fields.uri evt.uri
  let mfgData ← copyData fields.mfgData evt.mfgData
  some
    { flags := fields.flags
      uuids16 := uuids16
      uuids16IsComplete := fields.uuids16IsComplete
      uuids32 := uuids32
      uuids32IsComplete := fields.uuids32IsComplete
      uuids128 := uuids128
      uuids128IsComplete := fields.uuids128IsComplete
      name := name
      nameIsComplete :=
        if fields.name.ptr.isSome then fields.nameIsComplete else evt.nameIsComplete
      txPwrLvl := fields.txPwrLvl
      txPwrLvlIsPresent := fields.txPwrLvlIsPresent
      slaveItvlMin := slaveItvlMin
      slaveItvlMax := slaveItvlMax
      slaveItvlRangeIsPresent := slaveItvlRangeIsPresent
      svcDataUuid16 := svcDataUuid16
      publicTgtAddrs := publicTgtAddrs
      appearance := fields.appearance
      appearanceIsPresent := fields.appearanceIsPresent
      advItvl := fields.advItvl
      advItvlIsPresent := fields.advItvlIsPresent
      svcDataUuid32 := svcDataUuid32
      svcDataUuid128 := svcDataUuid128
      uri := uri
      mfgData := mfgData }

-- The arrays of UUIDs that bhd_gap_adv_fields has on its stack.
structure AdvLocals where
  uuids16 : Vector UInt16 (BLE_HS_ADV_MAX_FIELD_SZ / 2)
  uuids32 : Vector UInt32 (BLE_HS_ADV_MAX_FIELD_SZ / 4)
  uuids128 : Vector (Vector UInt8 16) (BLE_HS_ADV_MAX_FIELD_SZ / 16)

-- An access outside of an array, or the error exit.
inductive AdvStop where
  | outOfBounds
  | err
deriving DecidableEq, Repr

def pointToLocal {α : Type} {n m : Nat} (c : Counted α n) (buf : Vector α m) :
    Except AdvStop (CountedPtr α) :=
  if m < c.count.toNat then .error .err
  else
    match pointToCopy c buf with
    | none => .error .outOfBounds
    | some p => .ok p

-- The fields that bhd_gap_adv_fields gives to ble_hs_adv_set_fields.
def advFieldsInto (r : AdvMembers) (locals : AdvLocals) : Except AdvStop HsFields := do
  let uuids16 ← pointToLocal r.uuids16 locals.uuids16
  let uuids32 ← pointToLocal r.uuids32 locals.uuids32
  let uuids128 ← pointToLocal r.uuids128 locals.uuids128
  .ok
    { flags := r.flags
      uuids16 := uuids16
      uuids16IsComplete := 0 < r.uuids16.count && r.uuids16IsComplete
      uuids32 := uuids32
      uuids32IsComplete := 0 < r.uuids32.count && r.uuids32IsComplete
      uuids128 := uuids128
      uuids128IsComplete := 0 < r.uuids128.count && r.uuids128IsComplete
      name := pointTo r.name
      nameIsComplete := 0 < r.name.count && r.nameIsComplete
      txPwrLvl := r.txPwrLvl
      txPwrLvlIsPresent := r.txPwrLvlIsPresent
      slaveItvlRange :=
        if r.slaveItvlRangeIsPresent then some (putBe16 r.slaveItvlMin ++ putBe16 r.slaveItvlMax)
        else none
      svcDataUuid16 := pointTo r.svcDataUuid16
      publicTgtAddr := pointToRows r.publicTgtAddrs
      appearance := r.appearance
      appearanceIsPresent := r.appearanceIsPresent
      advItvl := r.advItvl
      advItvlIsPresent := r.advItvlIsPresent
      svcDataUuid32 := pointTo r.svcDataUuid32
      svcDataUuid128 := pointTo r.svcDataUuid128
      uri := pointTo r.uri
      mfgData := pointTo r.mfgData }

-- The value behind the pointers. A flag of completeness belongs to a list or a name that
-- is not empty.
def HsFields.value (f : HsFields) : HsAdvFields :=
  { flags := f.flags
    uuids16 := f.uuids16.list
    uuids16IsComplete := 0 < f.uuids16.list.length && f.uuids16IsComplete
    uuids32 := f.uuids32.list
    uuids32IsComplete := 0 < f.uuids32.list.length && f.uuids32IsComplete
    uuids128 := f.uuids128.list
    uuids128IsComplete := 0 < f.uuids128.list.length && f.uuids128IsComplete
    name := f.name.list
    nameIsComplete := 0 < f.name.list.length && f.nameIsComplete
    txPwrLvl := f.txPwrLvl
    txPwrLvlIsPresent := f.txPwrLvlIsPresent
    slaveItvlRange := (f.slaveItvlRange.getD []).take 4
    svcDataUuid16 := f.svcDataUuid16.list
    publicTgtAddr := f.publicTgtAddr.rows 6
    appearance := f.appearance
    appearanceIsPresent := f.appearanceIsPresent
    advItvl := f.advItvl
    advItvlIsPresent := f.advItvlIsPresent
    svcDataUuid32 := f.svcDataUuid32.list
    svcDataUuid128 := f.svcDataUuid128.list
    uri := f.uri.list
    mfgData := f.mfgData.list }

-- The lengths and counts of the fields.
def HsFields.counts (f : HsFields) : List UInt8 :=
  [f.uuids16.count, f.uuids32.count, f.uuids128.count, f.name.count, f.svcDataUuid16.count,
    f.publicTgtAddr.count, f.svcDataUuid32.count, f.svcDataUuid128.count, f.uri.count,
    f.mfgData.count]

def AdvMembers.counts (m : AdvMembers) : List UInt8 :=
  [m.uuids16.count, m.uuids32.count, m.uuids128.count, m.name.count, m.svcDataUuid16.count,
    m.publicTgtAddrs.count, m.svcDataUuid32.count, m.svcDataUuid128.count, m.uri.count,
    m.mfgData.count]

-- The list that each array is up to its count.
def AdvMembers.req (m : AdvMembers) : AdvFieldsReq :=
  { flags := m.flags
    uuids16 := m.uuids16.list
    uuids16IsComplete := m.uuids16IsComplete
    uuids32 := m.uuids32.list
    uuids32IsComplete := m.uuids32IsComplete
    uuids128 := m.uuids128.list
    uuids128IsComplete := m.uuids128IsComplete
    name := m.name.list
    nameIsComplete := m.nameIsComplete
    txPwrLvl := m.txPwrLvl
    txPwrLvlIsPresent := m.txPwrLvlIsPresent
    slaveItvlMin := m.slaveItvlMin
    slaveItvlMax := m.slaveItvlMax
    slaveItvlRangeIsPresent := m.slaveItvlRangeIsPresent
    svcDataUuid16 := m.svcDataUuid16.list
    publicTgtAddrs := m.publicTgtAddrs.list
    appearance := m.appearance
    appearanceIsPresent := m.appearanceIsPresent
    advItvl := m.advItvl
    advItvlIsPresent := m.advItvlIsPresent
    svcDataUuid32 := m.svcDataUuid32.list
    svcDataUuid128 := m.svcDataUuid128.list
    uri := m.uri.list
    mfgData := m.mfgData.list }

end Blehostd
