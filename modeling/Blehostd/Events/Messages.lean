import Blehostd.Daemon
import Blehostd.Events

namespace Blehostd

def gattAccessOpMap : List (String × Int) :=
  [("read_chr", 0), ("write_chr", 1), ("read_dsc", 2), ("write_dsc", 3)]

structure ConnectEvt where
  status : Int32
  connHandle : UInt16
deriving DecidableEq, Repr

-- struct ble_gap_conn_desc has the members of a conn_find response.
structure DisconnectEvt where
  desc : ConnFindRsp
  reason : Int32
deriving DecidableEq, Repr

structure WriteAckEvt where
  connHandle : UInt16
  attrHandle : UInt16
  status : Int32
deriving DecidableEq, Repr

structure MtuChangeEvt where
  connHandle : UInt16
  mtu : UInt16
  status : Int32
deriving DecidableEq, Repr

structure EncChangeEvt where
  connHandle : UInt16
  status : Int32
deriving DecidableEq, Repr

structure AccessEvt where
  accessOp : UInt8
  connHandle : UInt16
  attHandle : UInt16
  data : List UInt8
deriving DecidableEq, Repr

structure PasskeyEvt where
  connHandle : UInt16
  action : UInt8
  numcmp : UInt32
deriving DecidableEq, Repr

-- The union of struct bhd_evt. A scan_tmo event leaves it cleared.
inductive EvtBody where
  | sync (synced : Bool)
  | connect (evt : ConnectEvt)
  | disconnect (evt : DisconnectEvt)
  | discSvc (evt : DiscSvcEvt)
  | discChr (evt : DiscChrEvt)
  | discDsc (evt : DiscDscEvt)
  | writeAck (evt : WriteAckEvt)
  | notifyRx (evt : NotifyRxEvt)
  | mtuChange (evt : MtuChangeEvt)
  | scan (evt : ScanEvt)
  | zero
  | advComplete (reason : Int32)
  | encChange (evt : EncChangeEvt)
  | reset (reason : Int32)
  | access (evt : AccessEvt)
  | passkey (evt : PasskeyEvt)
deriving DecidableEq, Repr

structure Evt where
  hdr : MsgHdr
  body : EvtBody
deriving DecidableEq, Repr

def syncEvtEnc (synced : Bool) : Members :=
  addBool "synced" synced

def connectEvtEnc (evt : ConnectEvt) : Members :=
  addInt "status" evt.status.toInt ++
  if evt.connHandle ≠ BLE_HS_CONN_HANDLE_NONE then addInt "conn_handle" evt.connHandle.toNat
  else []

def connDescEnc (desc : ConnFindRsp) : Members :=
  (if desc.connHandle ≠ BLE_HS_CONN_HANDLE_NONE then addInt "conn_handle" desc.connHandle.toNat
    else []) ++
  addBleAddr "own_id_addr_type" "own_id_addr" desc.ourIdAddr ++
  addBleAddr "own_ota_addr_type" "own_ota_addr" desc.ourOtaAddr ++
  addBleAddr "peer_id_addr_type" "peer_id_addr" desc.peerIdAddr ++
  addBleAddr "peer_ota_addr_type" "peer_ota_addr" desc.peerOtaAddr

def disconnectEvtEnc (evt : DisconnectEvt) : Members :=
  addInt "reason" evt.reason.toInt ++ connDescEnc evt.desc

def writeAckEvtEnc (evt : WriteAckEvt) : Members :=
  addInt "conn_handle" evt.connHandle.toNat ++
  addInt "attr_handle" evt.attrHandle.toNat ++
  addInt "status" evt.status.toInt

def mtuChangeEvtEnc (evt : MtuChangeEvt) : Members :=
  addInt "conn_handle" evt.connHandle.toNat ++
  addInt "mtu" evt.mtu.toNat ++
  addInt "status" evt.status.toInt

def scanTmoEvtEnc : Members :=
  []

def advCompleteEvtEnc (reason : Int32) : Members :=
  addInt "reason" reason.toInt

def encChangeEvtEnc (evt : EncChangeEvt) : Members :=
  addInt "conn_handle" evt.connHandle.toNat ++
  addInt "status" evt.status.toInt

def resetEvtEnc (reason : Int32) : Members :=
  addInt "reason" reason.toInt

-- A value without a name is left out.
def addKv (map : List (String × Int)) (name : String) (val : UInt8) : Members :=
  match kvRevFind map val.toNat with
  | none => []
  | some valstr => addString name valstr

def addGattAccessOp : String → UInt8 → Members :=
  addKv gattAccessOpMap

def addSmPasskeyAction : String → UInt8 → Members :=
  addKv smPasskeyActionMap

def accessEvtEnc (evt : AccessEvt) : Members :=
  addGattAccessOp "access_op" evt.accessOp ++
  addInt "conn_handle" evt.connHandle.toNat ++
  addInt "att_handle" evt.attHandle.toNat ++
  addBytes "data" evt.data

def passkeyEvtEnc (evt : PasskeyEvt) : Members :=
  addInt "conn_handle" evt.connHandle.toNat ++
  addSmPasskeyAction "action" evt.action ++
  if (evt.action.toNat : Int) = BLE_SM_IOACT_NUMCMP then addInt "numcmp" evt.numcmp.toNat else []

-- An entry of bhd_evt_dispatch with the member of the union that its encoder reads. A
-- type without an entry ends in an assert, and so does here a member that was not written.
def evtDispatchFind (uuidToStr : Uuid → Text) : MsgType → EvtBody → Except Fault Members
  | .syncEvt, .sync synced => .ok (syncEvtEnc synced)
  | .connectEvt, .connect evt => .ok (connectEvtEnc evt)
  | .disconnectEvt, .disconnect evt => .ok (disconnectEvtEnc evt)
  | .discSvcEvt, .discSvc evt => .ok (discSvcEvtEnc uuidToStr evt)
  | .discChrEvt, .discChr evt => .ok (discChrEvtEnc uuidToStr evt)
  | .discDscEvt, .discDsc evt => .ok (discDscEvtEnc uuidToStr evt)
  | .writeAckEvt, .writeAck evt => .ok (writeAckEvtEnc evt)
  | .notifyRxEvt, .notifyRx evt => .ok (notifyRxEvtEnc evt)
  | .mtuChangeEvt, .mtuChange evt => .ok (mtuChangeEvtEnc evt)
  | .scanEvt, .scan evt => .ok (scanEvtEnc uuidToStr evt)
  | .scanTmoEvt, _ => .ok scanTmoEvtEnc
  | .advCompleteEvt, .advComplete reason => .ok (advCompleteEvtEnc reason)
  | .encChangeEvt, .encChange evt => .ok (encChangeEvtEnc evt)
  | .resetEvt, .reset reason => .ok (resetEvtEnc reason)
  | .accessEvt, .access evt => .ok (accessEvtEnc evt)
  | .passkeyEvt, .passkey evt => .ok (passkeyEvtEnc evt)
  | _, _ => .error .assertion

def evtEnc (uuidToStr : Uuid → Text) (evt : Evt) : Except Fault Json := do
  let members ← evtDispatchFind uuidToStr evt.hdr.type evt.body
  .ok (.object (msgHdrEnc evt.hdr ++ members))

def evtSend (lib : Externs) (evt : Evt) (rspMq : List Mbuf) : Except Fault (Int × List Mbuf) := do
  let root ← evtEnc lib.uuidToStr evt
  .ok (enqueueRsp (lib.print root) rspMq)

-- The senders of bhd_util.c, up to the event that they pass to bhd_evt_send.
def sendMtuChanged (seq : UInt32) (connHandle : UInt16) (status : Int32) (mtu : UInt16) : Evt :=
  ⟨⟨.evt, .mtuChangeEvt, seq⟩, .mtuChange ⟨connHandle, mtu, status⟩⟩

def sendSyncEvt (synced : Bool) (seq : UInt32) : Evt :=
  ⟨⟨.evt, .syncEvt, seq⟩, .sync synced⟩

def sendResetEvt (seq : UInt32) (reason : Int32) : Evt :=
  ⟨⟨.evt, .resetEvt, seq⟩, .reset reason⟩

def sendAccessEvt (seq : UInt32) (access : AccessEvt) : Evt :=
  ⟨⟨.evt, .accessEvt, seq⟩, .access access⟩

-- The type that goes with a member of the union.
def EvtBody.type : EvtBody → MsgType
  | .sync _ => .syncEvt
  | .connect _ => .connectEvt
  | .disconnect _ => .disconnectEvt
  | .discSvc _ => .discSvcEvt
  | .discChr _ => .discChrEvt
  | .discDsc _ => .discDscEvt
  | .writeAck _ => .writeAckEvt
  | .notifyRx _ => .notifyRxEvt
  | .mtuChange _ => .mtuChangeEvt
  | .scan _ => .scanEvt
  | .zero => .scanTmoEvt
  | .advComplete _ => .advCompleteEvt
  | .encChange _ => .encChangeEvt
  | .reset _ => .resetEvt
  | .access _ => .accessEvt
  | .passkey _ => .passkeyEvt

end Blehostd
