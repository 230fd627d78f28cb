import Blehostd.Events.Messages
import Blehostd.Events.Scan

namespace Blehostd

-- What the client learns of an event. Members that are not written are cleared, and a value
-- without a name is one without a name.
def UNNAMED : UInt8 := 254

def seenKv (map : List (String × Int)) (val : UInt8) : UInt8 :=
  if (kvRevFind map val.toNat).isSome then val else UNNAMED

def BleAddr.seen (addr : BleAddr) : BleAddr :=
  if addr.type = BHD_ADDR_TYPE_NONE then ⟨BHD_ADDR_TYPE_NONE, BleAddr.zero.val⟩
  else ⟨seenKv addrTypeMap addr.type, addr.val⟩

-- A text ends at its first NUL. One that starts with a NUL is still there, but empty.
def seenText (bytes : List UInt8) : List UInt8 :=
  if bytes.takeWhile (· ≠ 0) = [] then bytes.take 1 else bytes.takeWhile (· ≠ 0)

def ConnFindRsp.seen (desc : ConnFindRsp) : ConnFindRsp :=
  { ConnFindRsp.zero with
    connHandle := desc.connHandle
    ourIdAddr := desc.ourIdAddr.seen
    ourOtaAddr := desc.ourOtaAddr.seen
    peerIdAddr := desc.peerIdAddr.seen
    peerOtaAddr := desc.peerOtaAddr.seen }

def DiscSvcEvt.seen (evt : DiscSvcEvt) : DiscSvcEvt :=
  { evt with svc := if evt.status = 0 then evt.svc else ⟨0, 0, .u16 0⟩ }

def DiscChrEvt.seen (evt : DiscChrEvt) : DiscChrEvt :=
  { evt with chr := if evt.status = 0 then evt.chr else ⟨0, 0, 0, .u16 0⟩ }

def DiscDscEvt.seen (evt : DiscDscEvt) : DiscDscEvt :=
  { evt with dsc := if evt.status = 0 then evt.dsc else ⟨0, .u16 0⟩ }

def AdvFieldsReq.seen (f : AdvFieldsReq) : AdvFieldsReq :=
  { f with
    uuids16IsComplete := f.uuids16.length ≠ 0 && f.uuids16IsComplete
    uuids32IsComplete := f.uuids32.length ≠ 0 && f.uuids32IsComplete
    uuids128IsComplete := f.uuids128.length ≠ 0 && f.uuids128IsComplete
    name := seenText f.name
    nameIsComplete := f.name.length ≠ 0 && f.nameIsComplete
    txPwrLvl := if f.txPwrLvlIsPresent then f.txPwrLvl else 0
    slaveItvlMin := if f.slaveItvlRangeIsPresent then f.slaveItvlMin else 0
    slaveItvlMax := if f.slaveItvlRangeIsPresent then f.slaveItvlMax else 0
    appearance := if f.appearanceIsPresent then f.appearance else 0
    advItvl := if f.advItvlIsPresent then f.advItvl else 0
    uri := seenText f.uri }

def ScanEvt.seen (evt : ScanEvt) : ScanEvt where
  eventType := seenKv advEventTypeMap evt.eventType
  addr := ⟨seenKv addrTypeMap evt.addr.type, evt.addr.val⟩
  rssi := evt.rssi
  data := evt.data
  directAddr :=
    if evt.directAddr = BleAddr.zero then BleAddr.zero
    else ⟨seenKv addrTypeMap evt.directAddr.type, evt.directAddr.val⟩
  fields := evt.fields.seen

def AccessEvt.seen (evt : AccessEvt) : AccessEvt :=
  { evt with accessOp := seenKv gattAccessOpMap evt.accessOp }

def PasskeyEvt.seen (evt : PasskeyEvt) : PasskeyEvt :=
  { evt with
    action := seenKv smPasskeyActionMap evt.action
    numcmp := if (evt.action.toNat : Int) = BLE_SM_IOACT_NUMCMP then evt.numcmp else 0 }

def EvtBody.seen : EvtBody → EvtBody
  | .disconnect evt => .disconnect { evt with desc := evt.desc.seen }
  | .discSvc evt => .discSvc evt.seen
  | .discChr evt => .discChr evt.seen
  | .discDsc evt => .discDsc evt.seen
  | .scan evt => .scan evt.seen
  | .access evt => .access evt.seen
  | .passkey evt => .passkey evt.seen
  | body => body

def Evt.seen (evt : Evt) : Evt :=
  ⟨evt.hdr, evt.body.seen⟩

-- The members of an event, each with its value when it is there.
def named (map : List (String × Int)) (val : UInt8) : Option Json :=
  (kvRevFind map val.toNat).map fun valstr => .string (ascii valstr)

def addrTable (typeName name : String) (addr : BleAddr) : List (String × Option Json) :=
  [(typeName, if addr.type ≠ BHD_ADDR_TYPE_NONE then named addrTypeMap addr.type else none),
    (name, given (addr.type ≠ BHD_ADDR_TYPE_NONE) (.string (addrStr addr.val)))]

def connDescTable (desc : ConnFindRsp) : List (String × Option Json) :=
  [("conn_handle", given (desc.connHandle ≠ BLE_HS_CONN_HANDLE_NONE)
      (.number desc.connHandle.toNat))] ++
  addrTable "own_id_addr_type" "own_id_addr" desc.ourIdAddr ++
  addrTable "own_ota_addr_type" "own_ota_addr" desc.ourOtaAddr ++
  addrTable "peer_id_addr_type" "peer_id_addr" desc.peerIdAddr ++
  addrTable "peer_ota_addr_type" "peer_ota_addr" desc.peerOtaAddr

def dataEntry (entry : String × Option Json) : String × Option Json :=
  ("data_" ++ entry.1, entry.2)

def scanTable (uuidToStr : Uuid → Text) (evt : ScanEvt) : List (String × Option Json) :=
  [("event_type", named advEventTypeMap evt.eventType),
    ("addr_type", named addrTypeMap evt.addr.type),
    ("addr", some (.string (addrStr evt.addr.val))),
    ("rssi", some (.number evt.rssi.toInt)),
    ("data", given (0 < evt.data.length) (createByteString evt.data)),
    ("direct_addr_type", if evt.directAddr ≠ BleAddr.zero then
      named addrTypeMap evt.directAddr.type else none),
    ("direct_addr", given (evt.directAddr ≠ BleAddr.zero)
      (.string (addrStr evt.directAddr.val)))] ++
  (fieldTable uuidToStr evt.fields).map dataEntry

def bodyTable (uuidToStr : Uuid → Text) : EvtBody → List (String × Option Json)
  | .sync synced => [("synced", some (Json.createBool synced))]
  | .connect evt =>
      [("status", some (.number evt.status.toInt)),
        ("conn_handle", given (evt.connHandle ≠ BLE_HS_CONN_HANDLE_NONE)
          (.number evt.connHandle.toNat))]
  | .disconnect evt => ("reason", some (.number evt.reason.toInt)) :: connDescTable evt.desc
  | .discSvc evt =>
      [("conn_handle", some (.number evt.connHandle.toNat)),
        ("status", some (.number evt.status.toInt)),
        ("service", given (evt.status = 0) (.object (
          addInt "start_handle" evt.svc.startHandle.toNat ++
          addInt "end_handle" evt.svc.endHandle.toNat ++
          addText "uuid" (uuidToStr evt.svc.uuid))))]
  | .discChr evt =>
      [("conn_handle", some (.number evt.connHandle.toNat)),
        ("status", some (.number evt.status.toInt)),
        ("characteristic", given (evt.status = 0) (.object (
          addInt "def_handle" evt.chr.defHandle.toNat ++
          addInt "val_handle" evt.chr.valHandle.toNat ++
          addInt "properties" evt.chr.properties.toNat ++
          addText "uuid" (uuidToStr evt.chr.uuid))))]
  | .discDsc evt =>
      [("conn_handle", some (.number evt.connHandle.toNat)),
        ("status", some (.number evt.status.toInt)),
        ("chr_def_handle", some (.number evt.chrDefHandle.toNat)),
        ("descriptor", given (evt.status = 0) (.object (
          addInt "handle" evt.dsc.handle.toNat ++
          addText "uuid" (uuidToStr evt.dsc.uuid))))]
  | .writeAck evt =>
      [("conn_handle", some (.number evt.connHandle.toNat)),
        ("attr_handle", some (.number evt.attrHandle.toNat)),
        ("status", some (.number evt.status.toInt))]
  | .notifyRx evt =>
      [("conn_handle", some (.number evt.connHandle.toNat)),
        ("attr_handle", some (.number evt.attrHandle.toNat)),
        ("indication", some (Json.createBool evt.indication)),
        ("data", some (.string (hexStr (BLE_ATT_ATTR_MAX_LEN * 5) evt.data).1))]
  | .mtuChange evt =>
      [("conn_handle", some (.number evt.connHandle.toNat)),
        ("mtu", some (.number evt.mtu.toNat)),
        ("status", some (.number evt.status.toInt))]
  | .scan evt => scanTable uuidToStr evt
  | .zero => []
  | .advComplete reason => [("reason", some (.number reason.toInt))]
  | .encChange evt =>
      [("conn_handle", some (.number evt.connHandle.toNat)),
        ("status", some (.number evt.status.toInt))]
  | .reset reason => [("reason", some (.number reason.toInt))]
  | .access evt =>
      [("access_op", named gattAccessOpMap evt.accessOp),
        ("conn_handle", some (.number evt.connHandle.toNat)),
        ("att_handle", some (.number evt.attHandle.toNat)),
        ("data", some (createByteString evt.data))]
  | .passkey evt =>
      [("conn_handle", some (.number evt.connHandle.toNat)),
        ("action", named smPasskeyActionMap evt.action),
        ("numcmp", given ((evt.action.toNat : Int) = BLE_SM_IOACT_NUMCMP)
          (.number evt.numcmp.toNat))]

theorem tableMembers_nil : tableMembers [] = [] := rfl

theorem tableMembers_some (name : String) (item : Json) (rest : List (String × Option Json)) :
    tableMembers ((name, some item) :: rest) = (ascii name, item) :: tableMembers rest := rfl

theorem tableMembers_given (present : Prop) [Decidable present] (name : String) (item : Json)
    (rest : List (String × Option Json)) :
    tableMembers ((name, given present item) :: rest) =
      (if present then [(ascii name, item)] else []) ++ tableMembers rest := by
  unfold given
  split_ifs <;> rfl

theorem tableMembers_named (map : List (String × Int)) (name : String) (val : UInt8)
    (rest : List (String × Option Json)) :
    tableMembers ((name, named map val) :: rest) = addKv map name val ++ tableMembers rest := by
  unfold named addKv
  cases kvRevFind map (val.toNat : Int) <;> rfl

theorem addAddrType_kv (name : String) (addrType : UInt8) :
    addAddrType name addrType = addKv addrTypeMap name addrType := rfl

theorem addAdvEventType_kv (name : String) (eventType : UInt8) :
    addAdvEventType name eventType = addKv advEventTypeMap name eventType := rfl

theorem tableMembers_addr (typeName name : String) (addr : BleAddr) :
    tableMembers (addrTable typeName name addr) = addBleAddr typeName name addr := by
  unfold addrTable addBleAddr
  split_ifs with hnone
  · rw [tableMembers_named, given, if_pos hnone, tableMembers_some, addAddrType_kv]
    rfl
  · rw [given, if_neg hnone]
    rfl

theorem tableMembers_connDesc (desc : ConnFindRsp) :
    tableMembers (connDescTable desc) = connDescEnc desc := by
  simp only [connDescTable, connDescEnc, tableMembers_append, tableMembers_addr,
    tableMembers_given, tableMembers_nil, List.append_nil, addInt]

theorem tableMembers_optional (present : Prop) [Decidable present] (map : List (String × Int))
    (name : String) (val : UInt8) (rest : List (String × Option Json)) :
    tableMembers ((name, if present then named map val else none) :: rest) =
      (if present then addKv map name val else []) ++ tableMembers rest := by
  split_ifs
  · exact tableMembers_named map name val rest
  · rfl

theorem optional_append (present : Prop) [Decidable present] (first second : Members) :
    (if present then first ++ second else []) =
      (if present then first else []) ++ if present then second else [] := by
  split_ifs <;> rfl

-- A member of the advertising fields, or two that are added together.
theorem dataMembers_one (present : Prop) [Decidable present] (name : String) (item : Json)
    (members : Members) (h : members = addItem ("data_" ++ name) item) :
    tableMembers ([(name, given present item)].map dataEntry) =
      if present then members else [] := by
  rw [h]
  unfold given
  split_ifs <;> rfl

theorem dataMembers_two (present : Prop) [Decidable present] (first second : String)
    (item other : Json) (members : Members)
    (h : members = addItem ("data_" ++ first) item ++ addItem ("data_" ++ second) other) :
    tableMembers ([(first, given present item), (second, given present other)].map dataEntry) =
      if present then members else [] := by
  rw [h]
  unfold given
  split_ifs <;> rfl

theorem tableMembers_scan (uuidToStr : Uuid → Text) (evt : ScanEvt) :
    tableMembers (scanTable uuidToStr evt) = scanEvtEnc uuidToStr evt := by
  unfold scanTable scanEvtEnc fieldTable
  extract_lets f
  rw [tableMembers_append]
  -- The groups from the last to the second one.
  iterate 14
    rw [List.map_append, tableMembers_append, ← List.append_assoc]
    refine append_congr ?_ (by
      first
        | exact dataMembers_one _ _ _ _ rfl
        | exact dataMembers_two _ _ _ _ _ _ rfl)
  refine append_congr ?_ (dataMembers_one _ _ _ _ rfl)
  simp only [tableMembers_some, tableMembers_given, tableMembers_named, tableMembers_optional,
    tableMembers_nil, optional_append, addAddrType_kv, addAdvEventType_kv, addAddr, addText,
    addInt, addBytes, addItem, List.append_assoc, List.cons_append, List.nil_append,
    List.append_nil]

theorem evtDispatch_table (uuidToStr : Uuid → Text) (body : EvtBody) :
    evtDispatchFind uuidToStr body.type body = .ok (tableMembers (bodyTable uuidToStr body)) := by
  cases body with
  | disconnect evt =>
      simp only [EvtBody.type, evtDispatchFind, bodyTable, tableMembers_some,
        tableMembers_connDesc, disconnectEvtEnc, addInt, List.cons_append, List.nil_append]
  | scan evt =>
      rw [bodyTable, tableMembers_scan]
      rfl
  | _ =>
      simp [EvtBody.type, evtDispatchFind, bodyTable, tableMembers_some, tableMembers_given,
        tableMembers_named, tableMembers_nil, syncEvtEnc, connectEvtEnc, discSvcEvtEnc,
        discChrEvtEnc, discDscEvtEnc, writeAckEvtEnc, notifyRxEvtEnc, mtuChangeEvtEnc,
        scanTmoEvtEnc, advCompleteEvtEnc, encChangeEvtEnc, resetEvtEnc, accessEvtEnc,
        passkeyEvtEnc, addInt, addBool, addText, addItem, addBytes, addGattAccessOp,
        addSmPasskeyAction]

end Blehostd
