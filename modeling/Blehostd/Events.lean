import Blehostd.Responses

namespace Blehostd

def advEventTypeMap : List (String × Int) :=
  [("ind", 0), ("direct_ind_hd", 1), ("scan_ind", 2), ("nonconn_ind", 3), ("direct_ind_ld", 4)]

-- The advertising fields of the event, its data_ members, are declared like
-- those of an adv_fields request.
structure ScanEvt where
  eventType : UInt8
  addr : BleAddr
  rssi : Int8
  data : List UInt8
  directAddr : BleAddr
  fields : AdvFieldsReq
deriving DecidableEq, Repr

structure GattSvc where
  startHandle : UInt16
  endHandle : UInt16
  uuid : Uuid
deriving DecidableEq, Repr

structure GattChr where
  defHandle : UInt16
  valHandle : UInt16
  properties : UInt8
  uuid : Uuid
deriving DecidableEq, Repr

structure GattDsc where
  handle : UInt16
  uuid : Uuid
deriving DecidableEq, Repr

structure DiscSvcEvt where
  connHandle : UInt16
  status : Int32
  svc : GattSvc
deriving DecidableEq, Repr

structure DiscChrEvt where
  connHandle : UInt16
  status : Int32
  chr : GattChr
deriving DecidableEq, Repr

structure DiscDscEvt where
  connHandle : UInt16
  status : Int32
  chrDefHandle : UInt16
  dsc : GattDsc
deriving DecidableEq, Repr

structure NotifyRxEvt where
  connHandle : UInt16
  attrHandle : UInt16
  indication : Bool
  data : List UInt8
deriving DecidableEq, Repr

section Discovery

-- ble_uuid_to_str of the host.
variable (uuidToStr : Uuid → Text)

def discSvcEvtEnc (evt : DiscSvcEvt) : Members :=
  addInt "conn_handle" evt.connHandle.toNat ++
  addInt "status" evt.status.toInt ++
  if evt.status = 0 then
    addItem "service" (.object (
      addInt "start_handle" evt.svc.startHandle.toNat ++
      addInt "end_handle" evt.svc.endHandle.toNat ++
      addText "uuid" (uuidToStr evt.svc.uuid)))
  else []

def discChrEvtEnc (evt : DiscChrEvt) : Members :=
  addInt "conn_handle" evt.connHandle.toNat ++
  addInt "status" evt.status.toInt ++
  if evt.status = 0 then
    addItem "characteristic" (.object (
      addInt "def_handle" evt.chr.defHandle.toNat ++
      addInt "val_handle" evt.chr.valHandle.toNat ++
      addInt "properties" evt.chr.properties.toNat ++
      addText "uuid" (uuidToStr evt.chr.uuid)))
  else []

def discDscEvtEnc (evt : DiscDscEvt) : Members :=
  addInt "conn_handle" evt.connHandle.toNat ++
  addInt "status" evt.status.toInt ++
  addInt "chr_def_handle" evt.chrDefHandle.toNat ++
  if evt.status = 0 then
    addItem "descriptor" (.object (
      addInt "handle" evt.dsc.handle.toNat ++
      addText "uuid" (uuidToStr evt.dsc.uuid)))
  else []

end Discovery

-- A type without a name is left out.
def addAdvEventType (name : String) (eventType : UInt8) : Members :=
  match kvRevFind advEventTypeMap eventType.toNat with
  | none => []
  | some valstr => addString name valstr

def addGenArr {α : Type} (name : String) (vals : List α) (create : α → Json) : Members :=
  addItem name (.array (vals.map create))

-- The bytes of a field with a NUL behind them, added as a string.
def addField (name : String) (bytes : List UInt8) : Members :=
  addText name (bytes.takeWhile (· ≠ 0))

def createUuid128Bytes (uuidToStr : Uuid → Text) (value : Vector UInt8 16) : Json :=
  .string (uuidToStr (.u128 value))

def createAddr (addr : Addr) : Json :=
  .string (addrStr addr)

def createNumber (value : Nat) : Json :=
  .number value

def scanEvtEnc (uuidToStr : Uuid → Text) (evt : ScanEvt) : Members :=
  let f := evt.fields
  addAdvEventType "event_type" evt.eventType ++
  addAddrType "addr_type" evt.addr.type ++
  addAddr "addr" evt.addr.val ++
  addInt "rssi" evt.rssi.toInt ++
  (if 0 < evt.data.length then addBytes "data" evt.data else []) ++
  (if evt.directAddr ≠ BleAddr.zero then
    addAddrType "direct_addr_type" evt.directAddr.type ++
    addAddr "direct_addr" evt.directAddr.val
  else []) ++
  (if f.flags ≠ 0 then addInt "data_flags" f.flags.toNat else []) ++
  (if f.uuids16.length ≠ 0 then
    addGenArr "data_uuids16" f.uuids16 (fun uuid => createNumber uuid.toNat) ++
    addBool "data_uuids16_is_complete" f.uuids16IsComplete
  else []) ++
  (if f.uuids32.length ≠ 0 then
    addGenArr "data_uuids32" f.uuids32 (fun uuid => createNumber uuid.toNat) ++
    addBool "data_uuids32_is_complete" f.uuids32IsComplete
  else []) ++
  (if f.uuids128.length ≠ 0 then
    addGenArr "data_uuids128" f.uuids128 (createUuid128Bytes uuidToStr) ++
    addBool "data_uuids128_is_complete" f.uuids128IsComplete
  else []) ++
  (if f.name.length ≠ 0 then
    addField "data_name" f.name ++
    addBool "data_name_is_complete" f.nameIsComplete
  else []) ++
  (if f.txPwrLvlIsPresent then addInt "data_tx_pwr_lvl" f.txPwrLvl.toInt else []) ++
  (if f.slaveItvlRangeIsPresent then
    addInt "data_slave_itvl_min" f.slaveItvlMin.toNat ++
    addInt "data_slave_itvl_max" f.slaveItvlMax.toNat
  else []) ++
  (if f.svcDataUuid16.length ≠ 0 then addBytes "data_svc_data_uuid16" f.svcDataUuid16 else []) ++
  (if f.publicTgtAddrs.length ≠ 0 then
    addGenArr "data_public_tgt_addrs" f.publicTgtAddrs createAddr
  else []) ++
  (if f.appearanceIsPresent then addInt "data_appearance" f.appearance.toNat else []) ++
  (if f.advItvlIsPresent then addInt "data_adv_itvl" f.advItvl.toNat else []) ++
  (if f.svcDataUuid32.length ≠ 0 then addBytes "data_svc_data_uuid32" f.svcDataUuid32 else []) ++
  (if f.svcDataUuid128.length ≠ 0 then addBytes "data_svc_data_uuid128" f.svcDataUuid128 else []) ++
  (if f.uri.length ≠ 0 then addField "data_uri" f.uri else []) ++
  (if f.mfgData.length ≠ 0 then addBytes "data_mfg_data" f.mfgData else [])

-- The text goes through a buffer of the stack, five characters for each byte that
-- an attribute can have.
def notifyRxEvtEnc (evt : NotifyRxEvt) : Members :=
  addInt "conn_handle" evt.connHandle.toNat ++
  addInt "attr_handle" evt.attrHandle.toNat ++
  addBool "indication" evt.indication ++
  addText "data" (hexStr (BLE_ATT_ATTR_MAX_LEN * 5) evt.data).1

end Blehostd
