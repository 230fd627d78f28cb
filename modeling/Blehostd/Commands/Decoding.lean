import Blehostd.Commands
import Blehostd.Daemon.Truthful
import Blehostd.Requests.Members
import Blehostd.Services.Theorems

namespace Blehostd

theorem scanFilterPolicyMap_distinct :
    (scanFilterPolicyMap.map fun entry => ascii entry.1).Nodup := by decide
theorem advConnModeMap_distinct :
    (advConnModeMap.map fun entry => ascii entry.1).Nodup := by decide
theorem advDiscModeMap_distinct :
    (advDiscModeMap.map fun entry => ascii entry.1).Nodup := by decide
theorem advFilterPolicyMap_distinct :
    (advFilterPolicyMap.map fun entry => ascii entry.1).Nodup := by decide
theorem svcTypeMap_distinct :
    (svcTypeMap.map fun entry => ascii entry.1).Nodup := by decide

section Fields

variable {root : Json} {name : String}

theorem int_read {minval maxval n : Int} (h : root.getObjectItem name = numberItem n)
    (hmin : minval ≤ n) (hmax : n ≤ maxval) : jsonInt minval maxval root name = .ok n :=
  (jsonInt_ok minval maxval root name n).mpr ⟨h, hmin, hmax⟩

theorem byte_read (n : UInt8) (h : root.getObjectItem name = numberItem n.toNat) :
    jsonInt 0 UINT8_MAX root name = .ok n.toNat := by
  have hbound := n.toNat_lt
  exact int_read h (by omega) (by unfold UINT8_MAX; omega)

theorem half_read (n : UInt16) (h : root.getObjectItem name = numberItem n.toNat) :
    jsonInt 0 UINT16_MAX root name = .ok n.toNat := by
  have hbound := n.toNat_lt
  exact int_read h (by omega) (by unfold UINT16_MAX; omega)

theorem word_read (n : UInt32) (h : root.getObjectItem name = numberItem n.toNat) :
    jsonInt 0 UINT32_MAX root name = .ok n.toNat := by
  have hbound := n.toNat_lt
  exact int_read h (by omega) (by unfold UINT32_MAX; omega)

theorem nat_read (n : Nat) {maxval : Int} (h : root.getObjectItem name = numberItem n)
    (hmax : (n : Int) ≤ maxval) : jsonInt 0 maxval root name = .ok n :=
  int_read h (by omega) hmax

theorem durationMs_read (n : Int32) (h : root.getObjectItem name = numberItem n.toInt)
    (hmin : 0 ≤ n.toInt) : jsonInt 0 INT32_MAX root name = .ok n.toInt := by
  have hmax : n.toInt ≤ 2147483647 := n.toInt_le
  exact int_read h hmin hmax

theorem flag_read (value : Bool) (h : root.getObjectItem name = flagItem value) :
    jsonFlag root name = .ok (if value then 1 else 0) := by
  unfold jsonFlag jsonBool
  rw [h]
  cases value <;> rfl

theorem bit_flag (value : Bool) : bit (if value then 1 else 0) = value := by
  cases value <;> rfl

theorem kv_read {α : Type} [DecidableEq α] {map : List (String × α)} {val : α}
    (hdistinct : (map.map fun entry => ascii entry.1).Nodup) (hknown : Known map val)
    (h : root.getObjectItem name = kvItem map val) : jsonKv map root name = .ok val := by
  obtain ⟨valstr, hvalstr⟩ := hknown
  have hfind := kvFind_kvRevFind map hdistinct val valstr hvalstr
  rw [kvItem, hvalstr, Option.map_some] at h
  simp only [jsonKv, jsonString, member, h, processJsonString, bind, Except.bind, hfind]

theorem member_read {α : Type} (process : Json → Except ErrCode α) {item : Json} {val : α}
    (h : root.getObjectItem name = some item) (hprocess : process item = .ok val) :
    member process root name = .ok val := by
  simp only [member, h, hprocess]

theorem bytes_read {maxLen : Nat} (bytes : List UInt8)
    (h : root.getObjectItem name = some (createByteString bytes)) (hfits : bytes.length ≤ maxLen) :
    jsonHexString maxLen root name = .ok bytes :=
  member_read _ h (byteString_read bytes maxLen hfits)

theorem addrItem_read (addr : Addr) (h : root.getObjectItem name = some (createAddr addr)) :
    jsonAddr root name = .ok addr :=
  member_read _ h (addr_read addr)

theorem uuidItem_read {uuidToStr : Uuid → Text}
    (hstr : ∀ value, uuidToStr (.u128 value) = canonicalUuid (.u128 value)) {uuid : Uuid}
    (huuid : uuid.Requestable) (h : root.getObjectItem name = uuidItem uuidToStr uuid) :
    jsonUuid root name = .ok uuid := by
  cases uuid with
  | u16 value =>
      have hne : value.toNat ≠ 0 := fun hzero => huuid (UInt16.toNat_inj.mp hzero)
      have hbound := value.toNat_lt
      have hprocess : processJsonUuid (.number value.toNat) = .ok (.u16 value) := by
        rw [processJsonUuid_number, if_pos (by omega), ofInt_half]
      exact member_read _ h hprocess
  | u32 value => exact huuid.elim
  | u128 value =>
      have hitem : uuidItem uuidToStr (.u128 value) =
          some (.string (canonicalUuid (.u128 value))) := by
        rw [← hstr]
        rfl
      rw [hitem] at h
      exact member_read _ h (uuidText_read value)

end Fields

section Handlers

variable {root : Json} (seq : UInt32) (junk : Junk)

theorem needHandle_read {name : String} (n : UInt16) (msg : String)
    (exit : String → ErrCode → Exit) (h : root.getObjectItem name = numberItem n.toNat) :
    (needHandle ⟨root, seq, junk⟩ name msg exit).result = .ok n := by
  have hint : jsonInt 0 0xffff root name = .ok n.toNat := half_read n h
  unfold needHandle
  rw [Decoder.result_bind _ _ _ ((need_ok_iff _ _ _ _ _).mpr hint), ofInt_half]
  rfl

-- The members of a table.
abbrev Has (root : Json) (table : List (String × Option Json)) : Prop :=
  ∀ name item, (name, item) ∈ table → root.getObjectItem name = item

theorem connect_decoded (req : ConnectReq) (hreq : req.Requestable) (h : Has root req.table) :
    (connectReqRun ⟨root, seq, junk⟩).result = .ok (gapConnect req seq) := by
  have hown := kv_read addrTypeMap_named.distinct hreq.ownAddrType
    (h "own_addr_type" _ (by simp [ConnectReq.table]))
  have hpeer := kv_read addrTypeMap_named.distinct hreq.peerAddr
    (h "peer_addr_type" _ (by simp [ConnectReq.table]))
  have haddr := addrItem_read req.peerAddr.val (h "peer_addr" _ (by simp [ConnectReq.table]))
  have hduration := durationMs_read req.durationMs
    (h "duration_ms" _ (by simp [ConnectReq.table])) hreq.durationMs
  have hhalf (value : UInt16) (hmem : value ∈ [req.scanItvl, req.scanWindow, req.itvlMin,
      req.itvlMax, req.latency, req.supervisionTimeout, req.minCeLen, req.maxCeLen])
      (name : String) (hname : (name, numberItem value.toNat) ∈ req.table) :
      jsonInt 0 INT16_MAX root name = .ok value.toNat :=
    nat_read value.toNat (h _ _ hname) (hreq.halves value hmem)
  have hitvl := hhalf req.scanItvl (by simp) "scan_itvl" (by simp [ConnectReq.table])
  have hwindow := hhalf req.scanWindow (by simp) "scan_window" (by simp [ConnectReq.table])
  have hmin := hhalf req.itvlMin (by simp) "itvl_min" (by simp [ConnectReq.table])
  have hmax := hhalf req.itvlMax (by simp) "itvl_max" (by simp [ConnectReq.table])
  have hlatency := hhalf req.latency (by simp) "latency" (by simp [ConnectReq.table])
  have htimeout := hhalf req.supervisionTimeout (by simp) "supervision_timeout"
    (by simp [ConnectReq.table])
  have hminCe := hhalf req.minCeLen (by simp) "min_ce_len" (by simp [ConnectReq.table])
  have hmaxCe := hhalf req.maxCeLen (by simp) "max_ce_len" (by simp [ConnectReq.table])
  unfold connectReqRun
  simp only [Decoder.bind_result_ok, need_ok_iff]
  refine ⟨_, hown, _, hpeer, _, haddr, _, hduration, _, hitvl, _, hwindow, _, hmin, _, hmax,
    _, hlatency, _, htimeout, _, hminCe, _, hmaxCe, ?_⟩
  simp only [ofInt_byte, ofInt_half, Int32.ofInt_toInt]
  rfl

theorem terminate_decoded (connHandle : UInt16) (hciReason : UInt8)
    (h : Has root [("conn_handle", numberItem connHandle.toNat),
      ("hci_reason", numberItem hciReason.toNat)]) :
    (terminateReqRun ⟨root, seq, junk⟩).result = .ok (gapTerminate connHandle hciReason) := by
  have hhandle := needHandle_read seq junk connHandle "invalid conn_handle" .fill
    (h "conn_handle" _ (by simp))
  have hreason := byte_read hciReason (h "hci_reason" _ (by simp))
  unfold terminateReqRun
  simp only [Decoder.bind_result_ok, need_ok_iff]
  refine ⟨_, hhandle, _, hreason, ?_⟩
  rw [ofInt_byte]
  rfl

-- A request with a connection handle and nothing else.
theorem connHandle_decoded (connHandle : UInt16) (msg : String)
    (exit : String → ErrCode → Exit) (act : UInt16 → Action)
    (h : Has root [("conn_handle", numberItem connHandle.toNat)]) :
    (do
      let connHandle ← needHandle ⟨root, seq, junk⟩ "conn_handle" msg exit
      pure (act connHandle) : ReqDecoder Action).result = .ok (act connHandle) := by
  rw [Decoder.result_bind _ _ _ (needHandle_read seq junk connHandle msg exit
    (h "conn_handle" _ (by simp)))]
  rfl

theorem handleRange_decoded (range : HandleRange) (h : Has root range.table) :
    (handleRangeDec ⟨root, seq, junk⟩).result = .ok range := by
  have hconn := needHandle_read seq junk range.connHandle "invalid conn_handle" .fill
    (h "conn_handle" _ (by simp [HandleRange.table]))
  have hstart := needHandle_read seq junk range.startHandle "invalid start_attr_handle" .fill
    (h "start_handle" _ (by simp [HandleRange.table]))
  have hend := needHandle_read seq junk range.endHandle "invalid end_attr_handle" .fill
    (h "end_handle" _ (by simp [HandleRange.table]))
  unfold handleRangeDec
  simp only [Decoder.bind_result_ok]
  exact ⟨_, hconn, _, hstart, _, hend, rfl⟩

theorem writeReq_decoded (req : WriteReq) (attrBufSz : Nat) (hfits : req.data.length ≤ attrBufSz)
    (h : Has root req.table) : (writeReqDec ⟨root, seq, junk⟩ attrBufSz).result = .ok req := by
  have hconn := needHandle_read seq junk req.connHandle "invalid conn_handle" .fill
    (h "conn_handle" _ (by simp [WriteReq.table]))
  have hattr := needHandle_read seq junk req.attrHandle "invalid attr_handle" .fill
    (h "attr_handle" _ (by simp [WriteReq.table]))
  have hdata := bytes_read req.data (h "data" _ (by simp [WriteReq.table])) hfits
  unfold writeReqDec
  simp only [Decoder.bind_result_ok, need_ok_iff]
  exact ⟨_, hconn, _, hattr, _, hdata, rfl⟩

theorem genRandAddr_decoded (nrpa : Bool) (h : Has root [("nrpa", flagItem nrpa)]) :
    (genRandAddrReqRun ⟨root, seq, junk⟩).result =
      .ok (idGenRandAddr (if nrpa then 1 else 0)) := by
  have hflag := flag_read nrpa (h "nrpa" _ (by simp))
  unfold genRandAddrReqRun
  rw [Decoder.result_bind _ _ _ ((need_ok_iff _ _ _ _ _).mpr hflag)]
  cases nrpa <;> rfl

theorem setRandAddr_decoded (addr : Addr) (h : Has root [("addr", some (createAddr addr))]) :
    (setRandAddrReqRun ⟨root, seq, junk⟩).result = .ok (idSetRandAddr addr) := by
  have haddr := addrItem_read addr (h "addr" _ (by simp))
  unfold setRandAddrReqRun
  rw [Decoder.result_bind _ _ _ ((need_ok_iff _ _ _ _ _).mpr haddr)]
  rfl

theorem data_decoded (data : List UInt8) (maxLen : Nat) (exit : ErrCode → Exit)
    (act : List UInt8 → Action) (hfits : data.length ≤ maxLen)
    (h : Has root [("data", some (createByteString data))]) :
    (do
      let data ← need root "data" (jsonHexString maxLen) exit
      pure (act data) : ReqDecoder Action).result = .ok (act data) := by
  have hdata := bytes_read data (h "data" _ (by simp)) hfits
  rw [Decoder.result_bind _ _ _ ((need_ok_iff _ _ _ _ _).mpr hdata)]
  rfl

theorem scan_decoded (req : ScanReq) (hreq : req.Requestable) (h : Has root req.table) :
    (scanReqRun ⟨root, seq, junk⟩).result = .ok (gapScan req seq) := by
  have hown := kv_read addrTypeMap_named.distinct hreq.ownAddrType
    (h "own_addr_type" _ (by simp [ScanReq.table]))
  have hduration := durationMs_read req.durationMs
    (h "duration_ms" _ (by simp [ScanReq.table])) hreq.durationMs
  have hitvl := half_read req.itvl (h "itvl" _ (by simp [ScanReq.table]))
  have hwindow := half_read req.window (h "window" _ (by simp [ScanReq.table]))
  have hpolicy := kv_read scanFilterPolicyMap_distinct hreq.filterPolicy
    (h "filter_policy" _ (by simp [ScanReq.table]))
  have hlimited := flag_read req.limited (h "limited" _ (by simp [ScanReq.table]))
  have hpassive := flag_read req.passive (h "passive" _ (by simp [ScanReq.table]))
  have hfilter := flag_read req.filterDuplicates
    (h "filter_duplicates" _ (by simp [ScanReq.table]))
  unfold scanReqRun
  simp only [Decoder.bind_result_ok, need_ok_iff]
  refine ⟨_, hown, _, hduration, _, hitvl, _, hwindow, _, hpolicy, _, hlimited, _, hpassive,
    _, hfilter, ?_⟩
  simp only [ofInt_byte, ofInt_half, Int32.ofInt_toInt, bit_flag]
  rfl

theorem peerAddr_decoded (peerAddr : BleAddr)
    (hknown : peerAddr ≠ BleAddr.zero → Known addrTypeMap (peerAddr.type.toNat : Int))
    (htype : root.getObjectItem "peer_addr_type" = if peerAddr = BleAddr.zero then none
      else kvItem addrTypeMap (peerAddr.type.toNat : Int))
    (haddr : root.getObjectItem "peer_addr" =
      given (peerAddr ≠ BleAddr.zero) (createAddr peerAddr.val)) :
    (peerAddrDec ⟨root, seq, junk⟩).result = .ok peerAddr := by
  unfold peerAddrDec
  by_cases hzero : peerAddr = BleAddr.zero
  · rw [if_pos hzero] at htype
    have habsent : jsonAddrType root "peer_addr_type" = .error .enoent :=
      (ofMember_kv addrTypeMap).absent root "peer_addr_type" htype
    rw [Decoder.result_bind _ _ _ (want_absent _ _ _ _ habsent), hzero]
    rfl
  · rw [if_neg hzero] at htype
    rw [given, if_pos hzero] at haddr
    have hkind : jsonAddrType root "peer_addr_type" = .ok (peerAddr.type.toNat : Int) :=
      kv_read addrTypeMap_named.distinct (hknown hzero) htype
    have hval := addrItem_read peerAddr.val haddr
    rw [Decoder.result_bind _ _ _ (want_ok _ _ _ _ _ hkind)]
    simp only [Decoder.result_bind _ _ _ ((need_ok_iff _ _ _ _ _).mpr hval), ofInt_byte]
    rfl

theorem advStart_decoded (req : AdvStartReq) (hreq : req.Requestable) (h : Has root req.table) :
    (advStartReqRun ⟨root, seq, junk⟩).result = .ok (gapAdvStart req seq) := by
  have hown := kv_read addrTypeMap_named.distinct hreq.ownAddrType
    (h "own_addr_type" _ (by simp [AdvStartReq.table]))
  have hpeer := peerAddr_decoded seq junk req.peerAddr hreq.peerAddr
    (h "peer_addr_type" _ (by simp [AdvStartReq.table]))
    (h "peer_addr" _ (by simp [AdvStartReq.table]))
  have hduration := durationMs_read req.durationMs
    (h "duration_ms" _ (by simp [AdvStartReq.table])) hreq.durationMs
  have hconn := kv_read advConnModeMap_distinct hreq.connMode
    (h "conn_mode" _ (by simp [AdvStartReq.table]))
  have hdisc := kv_read advDiscModeMap_distinct hreq.discMode
    (h "disc_mode" _ (by simp [AdvStartReq.table]))
  have hmin := nat_read req.itvlMin.toNat (h "itvl_min" _ (by simp [AdvStartReq.table]))
    hreq.itvlMin
  have hmax := nat_read req.itvlMax.toNat (h "itvl_max" _ (by simp [AdvStartReq.table]))
    hreq.itvlMax
  have hchannels := nat_read req.channelMap.toNat
    (h "channel_map" _ (by simp [AdvStartReq.table])) hreq.channelMap
  have hpolicy := kv_read advFilterPolicyMap_distinct hreq.filterPolicy
    (h "filter_policy" _ (by simp [AdvStartReq.table]))
  have hduty := flag_read req.highDutyCycle (h "high_duty_cycle" _ (by simp [AdvStartReq.table]))
  unfold advStartReqRun
  simp only [Decoder.bind_result_ok, need_ok_iff]
  refine ⟨_, hown, _, hpeer, _, hduration, _, hconn, _, hdisc, _, hmin, _, hmax, _, hchannels,
    _, hpolicy, _, hduty, ?_⟩
  simp only [ofInt_byte, ofInt_half, Int32.ofInt_toInt, bit_flag]
  rfl

theorem accessStatus_decoded (attStatus : UInt8) (data : List UInt8)
    (hfits : data.length ≤ BLE_ATT_ATTR_MAX_LEN)
    (h : Has root [("att_status", numberItem attStatus.toNat),
      ("data", some (createByteString data))]) :
    (accessStatusReqRun ⟨root, seq, junk⟩).result =
      .ok (gattsAccessStatus attStatus data data.length) := by
  have hstatus := byte_read attStatus (h "att_status" _ (by simp))
  have hdata := bytes_read data (h "data" _ (by simp)) hfits
  unfold accessStatusReqRun
  rw [Decoder.result_bind _ _ _ ((need_ok_iff _ _ _ _ _).mpr hstatus),
    Decoder.result_bind _ _ _ (want_ok _ _ _ _ _ hdata), ofInt_byte]
  rfl

theorem notify_decoded (req : WriteReq) (hfits : req.data.length ≤ BLE_ATT_ATTR_MAX_LEN + 3)
    (h : Has root req.table) :
    (notifyReqRun ⟨root, seq, junk⟩).result = .ok (gattcNotify req) := by
  have hconn : jsonInt 0 0xffff root "conn_handle" = .ok req.connHandle.toNat :=
    half_read req.connHandle (h "conn_handle" _ (by simp [WriteReq.table]))
  have hattr : jsonInt 0 0xffff root "attr_handle" = .ok req.attrHandle.toNat :=
    half_read req.attrHandle (h "attr_handle" _ (by simp [WriteReq.table]))
  have hdata := bytes_read req.data (h "data" _ (by simp [WriteReq.table])) hfits
  have hattempt : (attempt root "data" (jsonHexString (BLE_ATT_ATTR_MAX_LEN + 3)) :
      ReqDecoder (Option (List UInt8))).result = .ok (some req.data) := by
    simp only [attempt, Decoder.look, hdata, Except.toOption]
  unfold notifyReqRun
  simp only [Decoder.bind_result_ok, need_ok_iff]
  refine ⟨_, hconn, _, hattr, _, hattempt, ?_⟩
  simp only [ofInt_half]
  rfl

theorem numcmp_flag (accept : UInt8) (h : accept ≤ 1) :
    UInt8.ofInt (if (accept = 1 : Bool) then 1 else 0) = accept := by
  have hle : accept.toNat ≤ 1 := UInt8.le_iff_toNat_le.mp h
  by_cases hone : accept = 1
  · simp [hone]
  · have hne : accept.toNat ≠ 1 := fun heq => hone (UInt8.toNat_inj.mp heq)
    have hzero : accept.toNat = (0 : UInt8).toNat := by
      rw [UInt8.toNat_zero]
      omega
    rw [UInt8.toNat_inj.mp hzero]
    rfl

-- Only the data of the action is decoded.
theorem smIo_decoded (connHandle : UInt16) (io : SmIo) (hio : io.Requestable)
    (h : Has root io.table) : ∃ req,
    (smIoDec ⟨root, seq, junk⟩ connHandle io.action).result = .ok req ∧
      smInjectIo req = callStatus (.smInjectIo connHandle io) := by
  cases io with
  | oob data =>
      have hlength : data.length = 16 := hio
      have hdata := bytes_read data (h "oob_data" _ (by simp [SmIo.table])) (Nat.le_of_eq hlength)
      refine ⟨⟨connHandle, BLE_SM_IOACT_OOB, data, 0, 0⟩, ?_, rfl⟩
      simp only [SmIo.action, smIoDec]
      rw [if_pos trivial, Decoder.result_bind _ _ _ ((need_ok_iff _ _ _ _ _).mpr hdata)]
      simp only [hlength, ne_eq, not_true_eq_false, if_false]
      rfl
  | input passkey =>
      have hpasskey := word_read passkey (h "passkey" _ (by simp [SmIo.table]))
      refine ⟨⟨connHandle, BLE_SM_IOACT_INPUT, List.replicate 16 0, passkey, 0⟩, ?_, rfl⟩
      simp only [SmIo.action, smIoDec]
      rw [if_neg (by decide), if_pos (by decide),
        Decoder.result_bind _ _ _ ((need_ok_iff _ _ _ _ _).mpr hpasskey), ofInt_word]
      rfl
  | disp passkey =>
      have hpasskey := word_read passkey (h "passkey" _ (by simp [SmIo.table]))
      refine ⟨⟨connHandle, BLE_SM_IOACT_DISP, List.replicate 16 0, passkey, 0⟩, ?_, rfl⟩
      simp only [SmIo.action, smIoDec]
      rw [if_neg (by decide), if_pos (by decide),
        Decoder.result_bind _ _ _ ((need_ok_iff _ _ _ _ _).mpr hpasskey), ofInt_word]
      rfl
  | numcmp accept =>
      have hflag := flag_read (accept = 1 : Bool) (h "numcmp_accept" _ (by simp [SmIo.table]))
      refine ⟨⟨connHandle, BLE_SM_IOACT_NUMCMP, List.replicate 16 0, 0, accept⟩, ?_, rfl⟩
      simp only [SmIo.action, smIoDec]
      rw [if_neg (by decide), if_neg (by decide), if_pos (by decide),
        Decoder.result_bind _ _ _ ((need_ok_iff _ _ _ _ _).mpr hflag), numcmp_flag accept hio]
      rfl

theorem smInjectIo_decoded (connHandle : UInt16) (io : SmIo) (hio : io.Requestable)
    (h : Has root ([("conn_handle", numberItem connHandle.toNat),
      ("action", kvItem smPasskeyActionMap io.action)] ++ io.table)) :
    (smInjectIoReqRun ⟨root, seq, junk⟩).result =
      .ok (callStatus (.smInjectIo connHandle io)) := by
  have hconn := half_read connHandle (h "conn_handle" _ (by simp))
  have hknown : Known smPasskeyActionMap io.action := by
    cases io <;> exact ⟨_, rfl⟩
  have haction : jsonSmPasskeyAction root "action" = .ok io.action :=
    kv_read smPasskeyActionMap_named.distinct hknown (h "action" _ (by simp))
  obtain ⟨req, hreq, hcall⟩ := smIo_decoded seq junk connHandle io hio
    fun name item hmem => h name item (List.mem_append_right _ hmem)
  unfold smInjectIoReqRun
  simp only [Decoder.bind_result_ok, need_ok_iff]
  refine ⟨_, hconn, _, haction, req, ?_, ?_⟩
  · rw [ofInt_half, hreq]
  · rw [hcall]
    rfl

end Handlers

theorem advIntDec_zero (r : Req) (name msg : String) (minval maxval val : Int) (present : Bool)
    (h : r.parent.getObjectItem name = none)
    (hval : (advIntDec r name msg minval maxval).result = .ok (val, present)) : val = 0 := by
  rw [advIntDec_absent r name msg minval maxval h] at hval
  exact (congrArg Prod.fst (Except.ok.inj hval)).symm

-- The completeness of an empty list is not in the call.
theorem complete_same {α : Type} (list : List α) (first second : Bool)
    (h : list.length ≠ 0 → first = second) :
    (decide (0 < list.length) && first) = (decide (0 < list.length) && second) := by
  by_cases hempty : list.length = 0
  · simp [hempty]
  · rw [h hempty]

theorem advFieldsOf_same (f req : AdvFieldsReq) (h : SameFields f req)
    (htx : req.txPwrLvl = f.txPwrLvl) (happearance : req.appearance = f.appearance)
    (hadvItvl : req.advItvl = f.advItvl) : advFieldsOf req = advFieldsOf f := by
  have h16 := complete_same f.uuids16 _ _ h.uuids16IsComplete
  have h32 := complete_same f.uuids32 _ _ h.uuids32IsComplete
  have h128 := complete_same f.uuids128 _ _ h.uuids128IsComplete
  have hname := complete_same f.name _ _ h.nameIsComplete
  have hrange : (if f.slaveItvlRangeIsPresent then
      putBe16 req.slaveItvlMin ++ putBe16 req.slaveItvlMax else []) =
      if f.slaveItvlRangeIsPresent then putBe16 f.slaveItvlMin ++ putBe16 f.slaveItvlMax
        else [] := by
    split_ifs with hpresent
    · rw [(h.slaveItvlRange hpresent).1, (h.slaveItvlRange hpresent).2]
    · rfl
  simp only [advFieldsOf, h.flags, h.uuids16, h.uuids32, h.uuids128, h.name, h.txPwrLvlIsPresent,
    h.slaveItvlRangeIsPresent, h.svcDataUuid16, h.publicTgtAddrs, h.appearanceIsPresent,
    h.advItvlIsPresent, h.svcDataUuid32, h.svcDataUuid128, h.uri, h.mfgData, h16, h32, h128, hname,
    hrange, htx, happearance, hadvItvl]

section Uuids

theorem chrTable_distinct (uuidToStr : Uuid → Text) (chr : Gatts.Chr) :
    ((chrTable uuidToStr chr).map fun entry => foldedKey entry.1).Nodup := by
  have hnames : (["uuid", "flags", "min_key_size", "descriptors"].map foldedKey).Nodup := by
    decide
  exact hnames

theorem svcTable_distinct (uuidToStr : Uuid → Text) (svc : Gatts.Svc) :
    ((svcTable uuidToStr svc).map fun entry => foldedKey entry.1).Nodup := by
  have hnames : (["type", "uuid", "characteristics"].map foldedKey).Nodup := by decide
  exact hnames

theorem createChr_plain (uuidToStr : Uuid → Text) (chr : Gatts.Chr) :
    ListField (createChr uuidToStr chr) "descriptors" [] :=
  Or.inr ⟨getObjectItem_table _ "descriptors" none (chrTable_distinct _ _) (by simp [chrTable]), rfl⟩

-- A request that is written for a command has no descriptors.
theorem command_inside (uuidToStr : Uuid → Text) (root : Json) (c : Command)
    (htype : jsonKv typeMap root "type" = .ok c.type) (h : Has root (c.table uuidToStr)) :
    ¬Overruns (some root) := by
  intro hoverruns
  obtain ⟨json, other, _, _, _, hjson, hhdr, -⟩ := id hoverruns
  obtain rfl := Option.some.inj hjson
  obtain ⟨-, -, hadd, -⟩ := msgHdrDec_ok root _ hhdr
  have hc : c.type = .addSvcs := Except.ok.inj (htype.symm.trans hadd)
  cases c with
  | addSvcs svcs =>
      revert hoverruns
      apply not_overruns_of_plain
      intro items hitems svcItem hsvc chrs hchrs chrItem hchr
      have hwritten : root.getObjectItem "services" =
          some (.array (svcs.map (createSvc uuidToStr))) := h _ _ (by simp [Command.table])
      obtain rfl := Json.array.inj (Option.some.inj (hwritten.symm.trans hitems))
      obtain ⟨svc, -, rfl⟩ := List.mem_map.mp hsvc
      have hlisted : ListField (createSvc uuidToStr svc) "characteristics"
          (svc.chrs.map (createChr uuidToStr)) :=
        Or.inl (getObjectItem_table _ _ _ (svcTable_distinct _ _) (by simp [svcTable]))
      rw [hchrs.unique hlisted] at hchr
      obtain ⟨chr, -, rfl⟩ := List.mem_map.mp hchr
      exact createChr_plain uuidToStr chr
  | _ => cases hc

variable (uuidToStr : Uuid → Text)
  (hstr : ∀ value, uuidToStr (.u128 value) = canonicalUuid (.u128 value)) (root : Json)
  (seq : UInt32) (junk : Junk)

include hstr

theorem discSvcUuid_decoded (connHandle : UInt16) (svcUuid : Uuid) (huuid : svcUuid.Requestable)
    (h : Has root [("conn_handle", numberItem connHandle.toNat),
      ("svc_uuid", uuidItem uuidToStr svcUuid)]) :
    (discSvcUuidReqRun ⟨root, seq, junk⟩).result =
      .ok (gattcDiscSvcUuid connHandle svcUuid seq) := by
  have hconn := needHandle_read seq junk connHandle "invalid conn_handle" .fill
    (h "conn_handle" _ (by simp))
  have hread := uuidItem_read hstr huuid (h "svc_uuid" _ (by simp))
  unfold discSvcUuidReqRun
  rw [Decoder.result_bind _ _ _ hconn,
    Decoder.result_bind _ _ _ ((need_ok_iff _ _ _ _ _).mpr hread)]
  rfl

theorem discChrUuid_decoded (range : HandleRange) (chrUuid : Uuid) (huuid : chrUuid.Requestable)
    (h : Has root (range.table ++ [("chr_uuid", uuidItem uuidToStr chrUuid)])) :
    (discChrUuidReqRun ⟨root, seq, junk⟩).result =
      .ok (gattcDiscChrUuid range chrUuid seq) := by
  have hrange := handleRange_decoded seq junk range
    fun name item hmem => h name item (List.mem_append_left _ hmem)
  have hread := uuidItem_read hstr huuid (h "chr_uuid" _ (by simp))
  unfold discChrUuidReqRun
  rw [Decoder.result_bind _ _ _ hrange,
    Decoder.result_bind _ _ _ ((need_ok_iff _ _ _ _ _).mpr hread)]
  rfl

theorem findChr_decoded (svcUuid chrUuid : Uuid) (hsvc : svcUuid.Requestable)
    (hchr : chrUuid.Requestable) (h : Has root [("svc_uuid", uuidItem uuidToStr svcUuid),
      ("chr_uuid", uuidItem uuidToStr chrUuid)]) :
    (findChrReqRun ⟨root, seq, junk⟩).result = .ok (gattsFindChr svcUuid chrUuid) := by
  have hfirst := uuidItem_read hstr hsvc (h "svc_uuid" _ (by simp))
  have hsecond := uuidItem_read hstr hchr (h "chr_uuid" _ (by simp))
  unfold findChrReqRun
  rw [Decoder.result_bind _ _ _ ((need_ok_iff _ _ _ _ _).mpr hfirst),
    Decoder.result_bind _ _ _ ((need_ok_iff _ _ _ _ _).mpr hsecond)]
  rfl

theorem advFields_decoded (req : AdvFieldsReq) (hreq : req.Requestable)
    (h : Has root (fieldTable uuidToStr req)) :
    (advFieldsReqRun ⟨root, seq, junk⟩).result = .ok (gapAdvFields req) := by
  obtain ⟨decoded, hdecoded, hsame⟩ :=
    table_decoded uuidToStr hstr req hreq.lists ⟨root, seq, junk⟩ h
  have hall : req.uuids32.filter (· ≤ 0xffff) = req.uuids32 := by
    rw [List.filter_eq_self]
    intro uuid hmem
    exact decide_eq_true (hreq.uuids32 uuid hmem)
  rw [hall] at hsame
  have htx : decoded.txPwrLvl = req.txPwrLvl := by
    cases hpresent : req.txPwrLvlIsPresent with
    | true => exact hsame.txPwrLvl hpresent
    | false =>
        obtain ⟨val, hval, hlevel⟩ := hdecoded.txPwrLvl
        rw [hlevel, hreq.txPwrLvl hpresent, advIntDec_zero _ _ _ _ _ _ _
          (h "tx_pwr_lvl" none (by simp [fieldTable, given, hpresent])) hval]
        rfl
  have happearance : decoded.appearance = req.appearance := by
    cases hpresent : req.appearanceIsPresent with
    | true => exact hsame.appearance hpresent
    | false =>
        obtain ⟨val, hval, hlook⟩ := hdecoded.appearance
        rw [hlook, hreq.appearance hpresent, advIntDec_zero _ _ _ _ _ _ _
          (h "appearance" none (by simp [fieldTable, given, hpresent])) hval]
        rfl
  have hadvItvl : decoded.advItvl = req.advItvl := by
    cases hpresent : req.advItvlIsPresent with
    | true => exact hsame.advItvl hpresent
    | false =>
        obtain ⟨val, hval, hitvl⟩ := hdecoded.advItvl
        rw [hitvl, hreq.advItvl hpresent, advIntDec_zero _ _ _ _ _ _ _
          (h "adv_itvl" none (by simp [fieldTable, given, hpresent])) hval]
        rfl
  have hcall := advFieldsOf_same req decoded hsame htx happearance hadvItvl
  have haction : gapAdvFields decoded = gapAdvFields req := by
    unfold gapAdvFields
    rw [hsame.uuids16, hsame.uuids32, hsame.uuids128, hcall]
  rw [advFieldsReqRun_dec, Decoder.result_bind _ _ _ (advFieldsDec_of _ _ hdecoded), haction]
  rfl

theorem createChr_decoded (slots : Nat → Gatts.Dsc) (chr : Gatts.Chr) (hchr : ChrRequestable chr) :
    (jsonChr slots (createChr uuidToStr chr)).result = .ok chr := by
  have hitem : Has (createChr uuidToStr chr) (chrTable uuidToStr chr) := by
    intro name item hmem
    exact getObjectItem_table _ name item (chrTable_distinct _ _) hmem
  have huuid := uuidItem_read hstr hchr.uuid (hitem "uuid" _ (by simp [chrTable]))
  have hflags := half_read chr.flags (hitem "flags" _ (by simp [chrTable]))
  have hsize := byte_read chr.minKeySize (hitem "min_key_size" _ (by simp [chrTable]))
  apply (jsonChr_ok _ slots chr).mpr
  exact ⟨huuid, (jsonInt_ok _ _ _ _ _).mp hflags, (jsonInt_ok _ _ _ _ _).mp hsize, [],
    createChr_plain uuidToStr chr, by simp, hchr.dscs⟩

theorem createSvc_decoded (slots : Nat → Nat → Gatts.Dsc) (svc : Gatts.Svc)
    (hsvc : SvcRequestable svc) :
    (jsonSvc slots (createSvc uuidToStr svc)).result = .ok svc := by
  have hitem : Has (createSvc uuidToStr svc) (svcTable uuidToStr svc) := by
    intro name item hmem
    exact getObjectItem_table _ name item (svcTable_distinct _ _) hmem
  have hknown : Known svcTypeMap svc.type := by
    cases svc.type <;> exact ⟨_, rfl⟩
  have htype : jsonSvcType (createSvc uuidToStr svc) "type" = .ok svc.type :=
    kv_read svcTypeMap_distinct hknown (hitem "type" _ (by simp [svcTable]))
  have huuid := uuidItem_read hstr hsvc.uuid (hitem "uuid" _ (by simp [svcTable]))
  have hchrs := (jsonArr_ok _ _ (svc.chrs.map (createChr uuidToStr))).mpr
    (hitem "characteristics" _ (by simp [svcTable]))
  have hdecoded := Decoder.each_written (fun ci item => jsonChr (slots ci) item)
    (createChr uuidToStr) 0 svc.chrs
    fun ci chr hmem => createChr_decoded uuidToStr hstr (slots ci) chr (hsvc.chrs chr hmem)
  unfold jsonSvc
  simp only [Decoder.bind_result_ok, need_ok_iff]
  exact ⟨_, htype, _, huuid, _, want_ok _ _ _ _ _ hchrs, _, hdecoded, rfl⟩

theorem addSvcs_decoded (svcs : List Gatts.Svc) (hsvcs : ∀ svc ∈ svcs, SvcRequestable svc)
    (h : Has root [("services", some (.array (svcs.map (createSvc uuidToStr))))]) :
    (addSvcsReqRun ⟨root, seq, junk⟩).result = .ok (gattsAddSvcs svcs) := by
  have harr := (jsonArr_ok _ _ (svcs.map (createSvc uuidToStr))).mpr (h "services" _ (by simp))
  have hdecoded := Decoder.each_written (fun si item => jsonSvc (junk.dscs si) item)
    (createSvc uuidToStr) 0 svcs
    fun si svc hmem => createSvc_decoded uuidToStr hstr (junk.dscs si) svc (hsvcs svc hmem)
  have hdec : (addSvcsDec ⟨root, seq, junk⟩).result = .ok svcs := by
    unfold addSvcsDec
    rw [Decoder.result_bind _ _ _ ((need_ok_iff _ _ _ _ _).mpr harr)]
    exact congrArg (Except.mapError _) hdecoded
  unfold addSvcsReqRun
  rw [Decoder.result_bind _ _ _ hdec]
  rfl

-- The handler of the command reads the arguments of the command.
theorem command_decoded (c : Command) (hc : c.Requestable) (h : Has root (c.table uuidToStr)) :
    ∃ run, reqDispatchFind c.type = some run ∧
      (run ⟨root, seq, junk⟩).result = .ok (c.action seq) := by
  cases c with
  | connect req => exact ⟨_, rfl, connect_decoded seq junk req hc h⟩
  | terminate connHandle hciReason => exact ⟨_, rfl, terminate_decoded seq junk _ _ h⟩
  | discAllSvcs connHandle =>
      exact ⟨_, rfl, connHandle_decoded seq junk _ _ _ (fun n => gattcDiscAllSvcs n seq) h⟩
  | discSvcUuid connHandle svcUuid =>
      exact ⟨_, rfl, discSvcUuid_decoded uuidToStr hstr root seq junk _ _ hc h⟩
  | discAllChrs range =>
      refine ⟨_, rfl, ?_⟩
      unfold discAllChrsReqRun
      rw [Decoder.result_bind _ _ _ (handleRange_decoded seq junk range h)]
      rfl
  | discChrUuid range chrUuid =>
      exact ⟨_, rfl, discChrUuid_decoded uuidToStr hstr root seq junk _ _ hc h⟩
  | discAllDscs range =>
      refine ⟨_, rfl, ?_⟩
      unfold discAllDscsReqRun
      rw [Decoder.result_bind _ _ _ (handleRange_decoded seq junk range h)]
      rfl
  | write req =>
      refine ⟨_, rfl, ?_⟩
      unfold writeReqRun
      rw [Decoder.result_bind _ _ _ (writeReq_decoded seq junk req _ hc h)]
      rfl
  | writeCmd req =>
      refine ⟨_, rfl, ?_⟩
      unfold writeCmdReqRun
      rw [Decoder.result_bind _ _ _ (writeReq_decoded seq junk req _ hc h)]
      rfl
  | exchangeMtu connHandle =>
      exact ⟨_, rfl, connHandle_decoded seq junk _ _ _ (fun n => gattcExchangeMtu n seq) h⟩
  | genRandAddr nrpa => exact ⟨_, rfl, genRandAddr_decoded seq junk _ h⟩
  | setRandAddr addr => exact ⟨_, rfl, setRandAddr_decoded seq junk _ h⟩
  | scan req => exact ⟨_, rfl, scan_decoded seq junk req hc h⟩
  | setPreferredMtu mtu =>
      refine ⟨_, rfl, ?_⟩
      have hmtu := half_read mtu (h "mtu" _ (by simp [Command.table]))
      unfold setPreferredMtuReqRun
      rw [Decoder.result_bind _ _ _ ((need_ok_iff _ _ _ _ _).mpr hmtu), ofInt_half]
      rfl
  | encInitiate connHandle =>
      exact ⟨_, rfl, connHandle_decoded seq junk _ _ _ gapSecurityInitiate h⟩
  | connFind connHandle => exact ⟨_, rfl, connHandle_decoded seq junk _ _ _ gapConnFind h⟩
  | advStart req => exact ⟨_, rfl, advStart_decoded seq junk req hc h⟩
  | advSetData data => exact ⟨_, rfl, data_decoded data _ _ gapAdvSetData hc h⟩
  | advRspSetData data => exact ⟨_, rfl, data_decoded data _ _ gapAdvRspSetData hc h⟩
  | advFields req => exact ⟨_, rfl, advFields_decoded uuidToStr hstr root seq junk req hc h⟩
  | addSvcs svcs => exact ⟨_, rfl, addSvcs_decoded uuidToStr hstr root seq junk svcs hc h⟩
  | accessStatus attStatus data => exact ⟨_, rfl, accessStatus_decoded seq junk _ _ hc h⟩
  | notify req => exact ⟨_, rfl, notify_decoded seq junk req hc h⟩
  | findChr svcUuid chrUuid =>
      exact ⟨_, rfl, findChr_decoded uuidToStr hstr root seq junk _ _ hc.1 hc.2 h⟩
  | smInjectIo connHandle io => exact ⟨_, rfl, smInjectIo_decoded seq junk _ io hc h⟩
  | sync => exact ⟨_, rfl, rfl⟩
  | connCancel => exact ⟨_, rfl, rfl⟩
  | scanCancel => exact ⟨_, rfl, rfl⟩
  | reset => exact ⟨_, rfl, rfl⟩
  | advStop => exact ⟨_, rfl, rfl⟩
  | clearSvcs => exact ⟨_, rfl, rfl⟩
  | commitSvcs => exact ⟨_, rfl, rfl⟩

-- A request that a client has written for a command makes the daemon run the command, whatever
-- the stack holds.
theorem reqDec_command (c : Command) (hc : c.Requestable) (hseq : seq ≤ BHD_SEQ_MAX)
    (h : c.WrittenIn uuidToStr seq root) (host : Host) (world : World) :
    reqDec (some root) junk host world =
      (c.action seq host (Rsp.cleared c.type seq) world).map fun answer => ⟨1, answer⟩ := by
  have hop := kv_read opMap_distinct (opMap_name .req)
    (h "op" _ (List.mem_append_left _ (by simp [headerTable])))
  have htype := kv_read typeMap_distinct (typeMap_name c.type)
    (h "type" _ (List.mem_append_left _ (by simp [headerTable])))
  have hmax : (seq.toNat : Int) ≤ BHD_SEQ_MAX.toNat := Int.ofNat_le.mpr hseq
  have hnumber := nat_read seq.toNat
    (h "seq" _ (List.mem_append_left _ (by simp [headerTable]))) hmax
  have hhdr : msgHdrDec root = .ok ⟨.req, c.type, seq⟩ := by
    simp only [msgHdrDec, hop, htype, hnumber, Except.mapError, bind, Except.bind, ofInt_word]
  have hmembers : Has root (c.table uuidToStr) :=
    fun name item hmem => h name item (List.mem_append_right _ hmem)
  obtain ⟨run, hrun, hresult⟩ := command_decoded uuidToStr hstr root seq junk c hc hmembers
  rw [reqDec_inside _ _ _ (command_inside uuidToStr root c htype hmembers)]
  simp only [reqOutcome, hhdr, ne_eq, not_true_eq_false, if_false, hrun, runReq, hresult]

end Uuids

section Writing

variable (uuidToStr : Uuid → Text)

theorem memberNames_distinct (type : MsgType) :
    ((["op", "type", "seq"] ++ type.memberNames).map foldedKey).Nodup := by
  cases type <;> decide +kernel

theorem table_names (c : Command) :
    List.Sublist ((c.table uuidToStr).map Prod.fst) c.type.memberNames := by
  cases c with
  | smInjectIo connHandle io =>
      cases io <;> simp [Command.table, SmIo.table, Command.type, MsgType.memberNames]
  | advFields req => simp [Command.table, fieldTable, Command.type, MsgType.memberNames]
  | _ => exact List.Sublist.refl _

-- Every command has a request.
theorem request_written (c : Command) (seq : UInt32) :
    c.WrittenIn uuidToStr seq (c.request uuidToStr seq) := by
  intro name item hmem
  apply getObjectItem_table _ name item _ hmem
  have hnames : List.Sublist ((headerTable c.type seq ++ c.table uuidToStr).map Prod.fst)
      (["op", "type", "seq"] ++ c.type.memberNames) := by
    rw [List.map_append]
    exact (table_names uuidToStr c).append_left ["op", "type", "seq"]
  have hdistinct := (memberNames_distinct c.type).sublist (hnames.map foldedKey)
  rw [List.map_map] at hdistinct
  exact hdistinct

end Writing

end Blehostd
