import Blehostd.Events.Messages
import Blehostd.Events.Scan.Fields

namespace Blehostd

def BLE_L2CAP_CID_ATT : UInt16 := 4

def BLE_HS_ADV_MAX_SZ : Nat := BLE_HCI_MAX_ADV_DATA_LEN

def BLE_GAP_REPEAT_PAIRING_RETRY : Int := 1

-- struct ble_gap_disc_desc, with the length_data bytes behind its data pointer.
structure GapDiscDesc where
  eventType : UInt8
  addr : BleAddr
  rssi : Int8
  data : List UInt8
  directAddr : BleAddr
deriving DecidableEq, Repr

-- struct ble_gap_event, as far as bhd_gap_event reads it.
inductive GapEvent where
  | disc (desc : GapDiscDesc)
  | discComplete
  | connect (status : Int32) (connHandle : UInt16)
  | disconnect (reason : Int32) (conn : ConnFindRsp)
  | mtu (connHandle channelId value : UInt16)
  | notifyRx (om : Mbuf) (connHandle attrHandle : UInt16) (indication : Bool)
  | advComplete
  | encChange (status : Int32) (connHandle : UInt16)
  | passkeyAction (connHandle : UInt16) (action : UInt8) (numcmp : UInt32)
  | repeatPairing (connHandle : UInt16)
  | other
deriving DecidableEq, Repr

-- What the callbacks call in the host: ble_hs_adv_parse_fields, ble_hs_mbuf_to_flat, which
-- writes no more than the size it is given, and ble_gap_conn_find.
structure CbHost where
  parseFields : List UInt8 → Option HsFields
  toFlat : Mbuf → (maxLen : Nat) → Option {data : List UInt8 // data.length ≤ maxLen}
  connFind : UInt16 → Option ConnFindRsp

-- What a callback returns to the host, the event that it sends, the next number of
-- bhd_next_evt_seq, and the peer whose bond it deletes.
structure CbOutcome where
  ret : Int
  evt : Option Evt
  nextSeq : UInt32
  deletedPeer : Option BleAddr

def gapSendConnectEvt (status : Int32) (connHandle : UInt16) (seq : UInt32) : Evt :=
  ⟨⟨.evt, .connectEvt, seq⟩, .connect ⟨status, connHandle⟩⟩

def gapSendDisconnectEvt (reason : Int32) (desc : ConnFindRsp) (seq : UInt32) : Evt :=
  ⟨⟨.evt, .disconnectEvt, seq⟩, .disconnect ⟨desc, reason⟩⟩

def gapSendNotifyRxEvt (connHandle attrHandle : UInt16) (indication : Bool)
    (attrVal : List UInt8) (seq : UInt32) : Evt :=
  ⟨⟨.evt, .notifyRxEvt, seq⟩, .notifyRx ⟨connHandle, attrHandle, indication, attrVal⟩⟩

-- The data are copied into an array of the event before they are parsed.
def gapSendScanEvt (parseFields : List UInt8 → Option HsFields) (desc : GapDiscDesc)
    (seq : UInt32) : Except Fault Evt :=
  let evt (members : AdvMembers) : Evt :=
    ⟨⟨.evt, .scanEvt, seq⟩,
      .scan ⟨desc.eventType, desc.addr, desc.rssi, desc.data, desc.directAddr, members.req⟩⟩
  if BLE_HS_ADV_MAX_SZ < desc.data.length then .error .outOfBounds
  else
    match parseFields desc.data with
    | none => .ok (evt AdvMembers.zero)
    | some fields =>
        match sendScanFields fields AdvMembers.zero with
        | none => .error .outOfBounds
        | some members => .ok (evt members)

def gapSendScanTmoEvt (seq : UInt32) : Evt :=
  ⟨⟨.evt, .scanTmoEvt, seq⟩, .zero⟩

def gapSendAdvCompleteEvt (reason : Int32) (seq : UInt32) : Evt :=
  ⟨⟨.evt, .advCompleteEvt, seq⟩, .advComplete reason⟩

def gapSendEncChangeEvt (status : Int32) (connHandle : UInt16) (seq : UInt32) : Evt :=
  ⟨⟨.evt, .encChangeEvt, seq⟩, .encChange ⟨connHandle, status⟩⟩

def gapSendPasskeyActionEvt (connHandle : UInt16) (action : UInt8) (numcmp : UInt32)
    (seq : UInt32) : Evt :=
  ⟨⟨.evt, .passkeyEvt, seq⟩, .passkey ⟨connHandle, action, numcmp⟩⟩

-- The results of the senders are not looked at.
def gapEvent (host : CbHost) (event : GapEvent) (seq nextSeq : UInt32) :
    Except Fault CbOutcome :=
  match event with
  | .disc desc => do
      let evt ← gapSendScanEvt host.parseFields desc seq
      .ok ⟨0, some evt, nextSeq, none⟩
  | .discComplete => .ok ⟨0, some (gapSendScanTmoEvt seq), nextSeq, none⟩
  | .connect status connHandle =>
      .ok ⟨0, some (gapSendConnectEvt status connHandle seq), nextSeq, none⟩
  | .disconnect reason conn =>
      .ok ⟨0, some (gapSendDisconnectEvt reason conn seq), nextSeq, none⟩
  | .mtu connHandle channelId value =>
      if channelId = BLE_L2CAP_CID_ATT then
        .ok ⟨0, some (sendMtuChanged seq connHandle 0 value), nextSeq, none⟩
      else .ok ⟨0, none, nextSeq, none⟩
  | .notifyRx om connHandle attrHandle indication =>
      match host.toFlat om BLE_ATT_ATTR_MAX_LEN with
      | none => .ok ⟨SYS_ERANGE, none, nextSeq, none⟩
      | some buf =>
          let (evtSeq, nextSeq) := nextEvtSeq nextSeq
          .ok ⟨0, some (gapSendNotifyRxEvt connHandle attrHandle indication buf.val evtSeq),
            nextSeq, none⟩
  | .advComplete => .ok ⟨0, some (gapSendAdvCompleteEvt 0 seq), nextSeq, none⟩
  | .encChange status connHandle =>
      .ok ⟨0, some (gapSendEncChangeEvt status connHandle seq), nextSeq, none⟩
  | .passkeyAction connHandle action numcmp =>
      .ok ⟨0, some (gapSendPasskeyActionEvt connHandle action numcmp seq), nextSeq, none⟩
  | .repeatPairing connHandle =>
      match host.connFind connHandle with
      | none => .error .assertion
      | some desc => .ok ⟨BLE_GAP_REPEAT_PAIRING_RETRY, none, nextSeq, some desc.peerIdAddr⟩
  | .other => .ok ⟨0, none, nextSeq, none⟩

end Blehostd
