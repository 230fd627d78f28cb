import Mathlib.Data.Nat.Basic

namespace Blehostd

inductive Uuid where
  | u16 (value : UInt16)
  | u32 (value : UInt32)
  | u128 (value : Vector UInt8 16)
deriving DecidableEq, Repr

-- ble_uuid_any_t. A record whose type byte names none of the three kinds, such
-- as a zeroed one, carries no value.
inductive UuidAny where
  | known (uuid : Uuid)
  | other (type : UInt8)
deriving DecidableEq, Repr

def UuidAny.zero : UuidAny := .other 0

-- ble_uuid_copy leaves the destination as it is when the source has no known type.
def UuidAny.copy (dst src : UuidAny) : UuidAny :=
  match src with
  | .known uuid => .known uuid
  | .other _ => dst

inductive SvcType where
  | primary
  | secondary
deriving DecidableEq, Repr

-- BLE_GATT_SVC_TYPE_PRIMARY and BLE_GATT_SVC_TYPE_SECONDARY. The value 0 ends a
-- list of services.
def SvcType.code : SvcType → UInt8
  | .primary => 1
  | .secondary => 2

end Blehostd
