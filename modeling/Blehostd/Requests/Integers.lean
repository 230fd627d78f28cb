import Blehostd.Requests.AdvFields
import Blehostd.Services.Theorems
import Blehostd.Util.Uuids

namespace Blehostd

-- The integer members of a request under the keys of their fields.
def ConnectReq.integers (req : ConnectReq) : List (String × Int) :=
  [("duration_ms", req.durationMs.toInt), ("scan_itvl", req.scanItvl.toNat),
    ("scan_window", req.scanWindow.toNat), ("itvl_min", req.itvlMin.toNat),
    ("itvl_max", req.itvlMax.toNat), ("latency", req.latency.toNat),
    ("supervision_timeout", req.supervisionTimeout.toNat), ("min_ce_len", req.minCeLen.toNat),
    ("max_ce_len", req.maxCeLen.toNat)]

def HandleRange.integers (range : HandleRange) : List (String × Int) :=
  [("conn_handle", range.connHandle.toNat), ("start_handle", range.startHandle.toNat),
    ("end_handle", range.endHandle.toNat)]

def WriteReq.integers (req : WriteReq) : List (String × Int) :=
  [("conn_handle", req.connHandle.toNat), ("attr_handle", req.attrHandle.toNat)]

def ScanReq.integers (req : ScanReq) : List (String × Int) :=
  [("duration_ms", req.durationMs.toInt), ("itvl", req.itvl.toNat), ("window", req.window.toNat)]

def AdvStartReq.integers (req : AdvStartReq) : List (String × Int) :=
  [("duration_ms", req.durationMs.toInt), ("itvl_min", req.itvlMin.toNat),
    ("itvl_max", req.itvlMax.toNat), ("channel_map", req.channelMap.toNat)]

-- The maximum of the range is read when there is a minimum.
def AdvFieldsReq.integers (req : AdvFieldsReq) : List (String × Int) :=
  [("flags", (req.flags.toNat : Int)), ("tx_pwr_lvl", req.txPwrLvl.toInt),
    ("slave_itvl_min", req.slaveItvlMin.toNat), ("appearance", req.appearance.toNat),
    ("adv_itvl", req.advItvl.toNat)] ++
  if req.slaveItvlRangeIsPresent then [("slave_itvl_max", (req.slaveItvlMax.toNat : Int))] else []

-- The passkey is read when it is entered or displayed.
def SmInjectIoReq.integers (req : SmInjectIoReq) : List (String × Int) :=
  ("conn_handle", (req.connHandle.toNat : Int)) ::
    if req.action = BLE_SM_IOACT_INPUT ∨ req.action = BLE_SM_IOACT_DISP then
      [("passkey", (req.passkey.toNat : Int))]
    else []

def Gatts.Chr.integers (chr : Gatts.Chr) : List (String × Int) :=
  [("flags", chr.flags.toNat), ("min_key_size", chr.minKeySize.toNat)]

def Gatts.Dsc.integers (dsc : Gatts.Dsc) : List (String × Int) :=
  [("att_flags", dsc.attFlags.toNat), ("min_key_size", dsc.minKeySize.toNat)]

-- Each JSON integer that is given for one of the fields is the value of its member.
def KeepsInts (parent : Json) (members : List (String × Int)) : Prop :=
  ∀ member ∈ members, ∀ given,
    parent.getObjectItem member.1 = some (.number given) → member.2 = given

-- A JSON integer that is given for a UUID is a 16-bit UUID.
def KeepsUuid (parent : Json) (key : String) (uuid : Uuid) : Prop :=
  ∀ given, parent.getObjectItem key = some (.number given) →
    ∃ u16 : UInt16, uuid = .u16 u16 ∧ (u16.toNat : Int) = given

structure KeepsDsc (parent : Json) (dsc : Gatts.Dsc) : Prop where
  uuid : ∃ uuid, dsc.uuid = .known uuid ∧ KeepsUuid parent "uuid" uuid
  integers : KeepsInts parent dsc.integers

-- The decoded descriptors in turn, each to the element `num_dscs` of the block.
def storeDscs (numDscs : Nat) (decoded : List Gatts.Dsc) (dscs : Nat → Gatts.Dsc) :
    Nat → Gatts.Dsc :=
  decoded.foldl (fun stored dsc => Function.update stored numDscs dsc) dscs

-- What the loop over the descriptors writes are the decoded ones, and it writes them all
-- to one element behind the block. The characteristic has the elements in front of it.
structure KeepsChr (parent : Json) (chr : Gatts.Chr) : Prop where
  uuid : KeepsUuid parent "uuid" chr.uuid
  integers : KeepsInts parent chr.integers
  dscs : ∃ items decoded dscs, ListField parent "descriptors" items ∧
    List.Forall₂ (fun item dsc => (jsonDsc item).result = .ok dsc ∧ KeepsDsc item dsc)
      items decoded ∧
    fillDscs items.length items dscs =
      ⟨List.replicate items.length ⟨items.length, items.length⟩,
        .ok (storeDscs items.length decoded dscs)⟩ ∧
    chr.dscs = (List.range items.length).map (storeDscs items.length decoded dscs)

structure KeepsSvc (parent : Json) (svc : Gatts.Svc) : Prop where
  uuid : KeepsUuid parent "uuid" svc.uuid
  chrs : ∃ items, ListField parent "characteristics" items ∧ List.Forall₂ KeepsChr items svc.chrs

-- What the handler of a decoded request is called with. The decoders of the other types
-- read no integers.
def Unnarrowed (r : Req) (action : Action) : MsgType → Prop
  | .connect => ∃ req, action = gapConnect req r.seq ∧ KeepsInts r.parent req.integers
  | .terminate => ∃ connHandle hciReason, action = gapTerminate connHandle hciReason ∧
      KeepsInts r.parent
        [("conn_handle", connHandle.toNat), ("hci_reason", hciReason.toNat)]
  | .discAllSvcs => ∃ connHandle, action = gattcDiscAllSvcs connHandle r.seq ∧
      KeepsInts r.parent [("conn_handle", connHandle.toNat)]
  | .discSvcUuid => ∃ connHandle svcUuid, action = gattcDiscSvcUuid connHandle svcUuid r.seq ∧
      KeepsInts r.parent [("conn_handle", connHandle.toNat)] ∧
        KeepsUuid r.parent "svc_uuid" svcUuid
  | .discAllChrs => ∃ range, action = gattcDiscAllChrs range r.seq ∧
      KeepsInts r.parent range.integers
  | .discChrUuid => ∃ range chrUuid, action = gattcDiscChrUuid range chrUuid r.seq ∧
      KeepsInts r.parent range.integers ∧ KeepsUuid r.parent "chr_uuid" chrUuid
  | .discAllDscs => ∃ range, action = gattcDiscAllDscs range r.seq ∧
      KeepsInts r.parent range.integers
  | .write => ∃ req, action = gattcWrite req r.seq ∧ KeepsInts r.parent req.integers
  | .writeCmd => ∃ req, action = gattcWriteNoRsp req ∧ KeepsInts r.parent req.integers
  | .exchangeMtu => ∃ connHandle, action = gattcExchangeMtu connHandle r.seq ∧
      KeepsInts r.parent [("conn_handle", connHandle.toNat)]
  | .scan => ∃ req, action = gapScan req r.seq ∧ KeepsInts r.parent req.integers
  | .setPreferredMtu => ∃ mtu, action = gattcSetPreferredMtu mtu ∧
      KeepsInts r.parent [("mtu", mtu.toNat)]
  | .encInitiate => ∃ connHandle, action = gapSecurityInitiate connHandle ∧
      KeepsInts r.parent [("conn_handle", connHandle.toNat)]
  | .connFind => ∃ connHandle, action = gapConnFind connHandle ∧
      KeepsInts r.parent [("conn_handle", connHandle.toNat)]
  | .advStart => ∃ req, action = gapAdvStart req r.seq ∧ KeepsInts r.parent req.integers
  | .advFields => ∃ req, (advFieldsDec r).result = .ok req ∧ action = gapAdvFields req ∧
      KeepsInts r.parent req.integers
  | .addSvcs => ∃ items svcs, r.parent.getObjectItem "services" = some (.array items) ∧
      action = gattsAddSvcs svcs ∧ List.Forall₂ KeepsSvc items svcs
  | .accessStatus => ∃ attStatus data dataLen, action = gattsAccessStatus attStatus data dataLen ∧
      KeepsInts r.parent [("att_status", attStatus.toNat)]
  | .notify => ∃ req, action = gattcNotify req ∧ KeepsInts r.parent req.integers
  | .findChr => ∃ svcUuid chrUuid, action = gattsFindChr svcUuid chrUuid ∧
      KeepsUuid r.parent "svc_uuid" svcUuid ∧ KeepsUuid r.parent "chr_uuid" chrUuid
  | .smInjectIo => ∃ req, action = smInjectIo req ∧ KeepsInts r.parent req.integers
  | _ => True

theorem keepsInts_nil (parent : Json) : KeepsInts parent [] := by
  intro member hmem
  exact absurd hmem List.not_mem_nil

theorem keepsInts_cons (parent : Json) (key : String) (stored : Int)
    (members : List (String × Int))
    (hkey : ∀ given, parent.getObjectItem key = some (.number given) → stored = given)
    (hmembers : KeepsInts parent members) : KeepsInts parent ((key, stored) :: members) := by
  intro member hmem
  rcases List.mem_cons.mp hmem with rfl | hlater
  · exact hkey
  · exact hmembers member hlater

theorem keepsInts_append (parent : Json) (members others : List (String × Int))
    (hmembers : KeepsInts parent members) (hothers : KeepsInts parent others) :
    KeepsInts parent (members ++ others) := by
  intro member hmem
  rcases List.mem_append.mp hmem with hfirst | hlater
  · exact hmembers member hfirst
  · exact hothers member hlater

section Rules

variable {ε : Type} {parent : Json} {key : String} {hi val : Int} {exit : ErrCode → ε}
  {members : List (String × Int)}

theorem needInt_given (lo : Int)
    (hval : (need parent key (jsonInt lo hi) exit).result = .ok val) :
    lo ≤ val ∧ val ≤ hi ∧
      ∀ given, parent.getObjectItem key = some (.number given) → val = given := by
  obtain ⟨hitem, hlow, hhigh⟩ := (jsonInt_ok _ _ _ _ _).mp ((need_ok_iff _ _ _ _ _).mp hval)
  refine ⟨hlow, hhigh, ?_⟩
  intro given hgiven
  rw [hitem] at hgiven
  cases hgiven
  rfl

-- One rule for each width of a member. The bound of the lookup lies within its range.
theorem KeepsInts.byte (hmembers : KeepsInts parent members)
    (hval : (need parent key (jsonInt 0 hi) exit).result = .ok val) (hhi : hi ≤ 255) :
    KeepsInts parent ((key, ((UInt8.ofInt val).toNat : Int)) :: members) := by
  obtain ⟨hlow, hhigh, hgiven⟩ := needInt_given 0 hval
  rw [toNat_ofInt_byte val hlow (by omega)]
  exact keepsInts_cons parent key val members hgiven hmembers

theorem KeepsInts.half (hmembers : KeepsInts parent members)
    (hval : (need parent key (jsonInt 0 hi) exit).result = .ok val) (hhi : hi ≤ 65535) :
    KeepsInts parent ((key, ((UInt16.ofInt val).toNat : Int)) :: members) := by
  obtain ⟨hlow, hhigh, hgiven⟩ := needInt_given 0 hval
  rw [toNat_ofInt_half val hlow (by omega)]
  exact keepsInts_cons parent key val members hgiven hmembers

theorem toNat_ofInt_word (val : Int) (hlow : 0 ≤ val) (hhigh : val ≤ 4294967295) :
    ((UInt32.ofInt val).toNat : Int) = val := by
  have hsmall : val.toNat < 2 ^ 32 := by omega
  have hnat : ((UInt32.ofNat val.toNat).toNat : Int) = val := by
    rw [UInt32.toNat_ofNat_of_lt' hsmall, Int.toNat_of_nonneg hlow]
  rw [← hnat, ofInt_word]

theorem KeepsInts.word (hmembers : KeepsInts parent members)
    (hval : (need parent key (jsonInt 0 hi) exit).result = .ok val) (hhi : hi ≤ 4294967295) :
    KeepsInts parent ((key, ((UInt32.ofInt val).toNat : Int)) :: members) := by
  obtain ⟨hlow, hhigh, hgiven⟩ := needInt_given 0 hval
  rw [toNat_ofInt_word val hlow (by omega)]
  exact keepsInts_cons parent key val members hgiven hmembers

theorem KeepsInts.signedWord (hmembers : KeepsInts parent members)
    (hval : (need parent key (jsonInt 0 hi) exit).result = .ok val) (hhi : hi ≤ 2147483647) :
    KeepsInts parent ((key, (Int32.ofInt val).toInt) :: members) := by
  obtain ⟨hlow, hhigh, hgiven⟩ := needInt_given 0 hval
  rw [Int32.toInt_ofInt_of_le (by omega) (by omega)]
  exact keepsInts_cons parent key val members hgiven hmembers

end Rules

theorem KeepsInts.handle {members : List (String × Int)} {r : Req} {key msg : String}
    {exit : String → ErrCode → Exit} {handle : UInt16} (hmembers : KeepsInts r.parent members)
    (hhandle : (needHandle r key msg exit).result = .ok handle) :
    KeepsInts r.parent ((key, (handle.toNat : Int)) :: members) := by
  obtain ⟨val, hval, hstored⟩ := (Decoder.bind_result_ok _ _ _).mp hhandle
  obtain rfl := Except.ok.inj hstored
  exact hmembers.half hval (by decide)

theorem keepsUuid_of_ok {parent : Json} {key : String} {uuid : Uuid}
    (huuid : jsonUuid parent key = .ok uuid) : KeepsUuid parent key uuid := by
  intro given hgiven
  simp only [jsonUuid, member, hgiven, processJsonUuid_number] at huuid
  split_ifs at huuid with hbounds
  obtain rfl := Except.ok.inj huuid
  exact ⟨UInt16.ofInt given, rfl, toNat_ofInt_half given (by omega) (by omega)⟩

theorem connect_unnarrowed (r : Req) :
    (connectReqRun r).Returns fun action => Unnarrowed r action .connect := by
  unfold connectReqRun
  iterate 3
    apply Decoder.returns_bind
    intro _ _
  apply Decoder.returns_bind
  intro durationMs hdurationMs
  apply Decoder.returns_bind
  intro scanItvl hscanItvl
  apply Decoder.returns_bind
  intro scanWindow hscanWindow
  apply Decoder.returns_bind
  intro itvlMin hitvlMin
  apply Decoder.returns_bind
  intro itvlMax hitvlMax
  apply Decoder.returns_bind
  intro latency hlatency
  apply Decoder.returns_bind
  intro supervisionTimeout hsupervisionTimeout
  apply Decoder.returns_bind
  intro minCeLen hminCeLen
  apply Decoder.returns_bind
  intro maxCeLen hmaxCeLen
  apply Decoder.returns_pure
  refine ⟨_, rfl, ?_⟩
  have hce := ((keepsInts_nil r.parent).half hmaxCeLen (by decide)).half hminCeLen (by decide)
  have hconn := (hce.half hsupervisionTimeout (by decide)).half hlatency (by decide)
  have hitvl := (hconn.half hitvlMax (by decide)).half hitvlMin (by decide)
  have hscan := (hitvl.half hscanWindow (by decide)).half hscanItvl (by decide)
  exact hscan.signedWord hdurationMs (by decide)

theorem scan_unnarrowed (r : Req) :
    (scanReqRun r).Returns fun action => Unnarrowed r action .scan := by
  unfold scanReqRun
  apply Decoder.returns_bind
  intro _ _
  apply Decoder.returns_bind
  intro durationMs hdurationMs
  apply Decoder.returns_bind
  intro itvl hitvl
  apply Decoder.returns_bind
  intro window hwindow
  iterate 4
    apply Decoder.returns_bind
    intro _ _
  apply Decoder.returns_pure
  refine ⟨_, rfl, ?_⟩
  have hlist := ((keepsInts_nil r.parent).half hwindow (by decide)).half hitvl (by decide)
  exact hlist.signedWord hdurationMs (by decide)

theorem advStart_unnarrowed (r : Req) :
    (advStartReqRun r).Returns fun action => Unnarrowed r action .advStart := by
  unfold advStartReqRun
  iterate 2
    apply Decoder.returns_bind
    intro _ _
  apply Decoder.returns_bind
  intro durationMs hdurationMs
  iterate 2
    apply Decoder.returns_bind
    intro _ _
  apply Decoder.returns_bind
  intro itvlMin hitvlMin
  apply Decoder.returns_bind
  intro itvlMax hitvlMax
  apply Decoder.returns_bind
  intro channelMap hchannelMap
  iterate 2
    apply Decoder.returns_bind
    intro _ _
  apply Decoder.returns_pure
  refine ⟨_, rfl, ?_⟩
  have hmap := (keepsInts_nil r.parent).byte hchannelMap (by decide)
  have hitvl := (hmap.half hitvlMax (by decide)).half hitvlMin (by decide)
  exact hitvl.signedWord hdurationMs (by decide)

-- A request whose only integer is the handle of the connection.
theorem handle_unnarrowed (r : Req) (exit : String → ErrCode → Exit) (act : UInt16 → Action) :
    (needHandle r "conn_handle" "invalid conn_handle" exit >>= fun connHandle =>
      pure (act connHandle)).Returns fun action => ∃ connHandle, action = act connHandle ∧
        KeepsInts r.parent [("conn_handle", connHandle.toNat)] := by
  apply Decoder.returns_bind
  intro connHandle hconnHandle
  apply Decoder.returns_pure
  exact ⟨connHandle, rfl, (keepsInts_nil r.parent).handle hconnHandle⟩

theorem terminate_unnarrowed (r : Req) :
    (terminateReqRun r).Returns fun action => Unnarrowed r action .terminate := by
  unfold terminateReqRun
  apply Decoder.returns_bind
  intro connHandle hconnHandle
  apply Decoder.returns_bind
  intro hciReason hhciReason
  apply Decoder.returns_pure
  exact ⟨connHandle, UInt8.ofInt hciReason, rfl,
    ((keepsInts_nil r.parent).byte hhciReason (by decide)).handle hconnHandle⟩

theorem handleRange_keeps (r : Req) :
    (handleRangeDec r).Returns fun range => KeepsInts r.parent range.integers := by
  unfold handleRangeDec
  apply Decoder.returns_bind
  intro connHandle hconnHandle
  apply Decoder.returns_bind
  intro startHandle hstartHandle
  apply Decoder.returns_bind
  intro endHandle hendHandle
  apply Decoder.returns_pure
  exact (((keepsInts_nil r.parent).handle hendHandle).handle hstartHandle).handle hconnHandle

theorem writeReq_keeps (r : Req) (attrBufSz : Nat) :
    (writeReqDec r attrBufSz).Returns fun req => KeepsInts r.parent req.integers := by
  unfold writeReqDec
  apply Decoder.returns_bind
  intro connHandle hconnHandle
  apply Decoder.returns_bind
  intro attrHandle hattrHandle
  apply Decoder.returns_bind
  intro data _
  apply Decoder.returns_pure
  exact ((keepsInts_nil r.parent).handle hattrHandle).handle hconnHandle

theorem discSvcUuid_unnarrowed (r : Req) :
    (discSvcUuidReqRun r).Returns fun action => Unnarrowed r action .discSvcUuid := by
  unfold discSvcUuidReqRun
  apply Decoder.returns_bind
  intro connHandle hconnHandle
  apply Decoder.returns_bind
  intro svcUuid hsvcUuid
  apply Decoder.returns_pure
  exact ⟨connHandle, svcUuid, rfl, (keepsInts_nil r.parent).handle hconnHandle,
    keepsUuid_of_ok ((need_ok_iff _ _ _ _ _).mp hsvcUuid)⟩

theorem discChrUuid_unnarrowed (r : Req) :
    (discChrUuidReqRun r).Returns fun action => Unnarrowed r action .discChrUuid := by
  unfold discChrUuidReqRun
  apply Decoder.returns_bind
  intro range hrange
  apply Decoder.returns_bind
  intro chrUuid hchrUuid
  apply Decoder.returns_pure
  exact ⟨range, chrUuid, rfl, handleRange_keeps r range hrange,
    keepsUuid_of_ok ((need_ok_iff _ _ _ _ _).mp hchrUuid)⟩

-- A request that is a range of handles, or the handles of an attribute with its value.
theorem range_unnarrowed (r : Req) (act : HandleRange → Action) :
    (handleRangeDec r >>= fun range => pure (act range)).Returns fun action =>
      ∃ range, action = act range ∧ KeepsInts r.parent range.integers := by
  apply Decoder.returns_bind
  intro range hrange
  apply Decoder.returns_pure
  exact ⟨range, rfl, handleRange_keeps r range hrange⟩

theorem write_unnarrowed (r : Req) (attrBufSz : Nat) (act : WriteReq → Action) :
    (writeReqDec r attrBufSz >>= fun req => pure (act req)).Returns fun action =>
      ∃ req, action = act req ∧ KeepsInts r.parent req.integers := by
  apply Decoder.returns_bind
  intro req hreq
  apply Decoder.returns_pure
  exact ⟨req, rfl, writeReq_keeps r attrBufSz req hreq⟩

theorem setPreferredMtu_unnarrowed (r : Req) :
    (setPreferredMtuReqRun r).Returns fun action => Unnarrowed r action .setPreferredMtu := by
  unfold setPreferredMtuReqRun
  apply Decoder.returns_bind
  intro mtu hmtu
  apply Decoder.returns_pure
  exact ⟨UInt16.ofInt mtu, rfl, (keepsInts_nil r.parent).half hmtu (by decide)⟩

theorem accessStatus_unnarrowed (r : Req) :
    (accessStatusReqRun r).Returns fun action => Unnarrowed r action .accessStatus := by
  unfold accessStatusReqRun
  apply Decoder.returns_bind
  intro attStatus hattStatus
  apply Decoder.returns_bind
  intro data _
  apply Decoder.returns_pure
  exact ⟨_, _, _, rfl, (keepsInts_nil r.parent).byte hattStatus (by decide)⟩

theorem notify_unnarrowed (r : Req) :
    (notifyReqRun r).Returns fun action => Unnarrowed r action .notify := by
  unfold notifyReqRun
  apply Decoder.returns_bind
  intro connHandle hconnHandle
  apply Decoder.returns_bind
  intro attrHandle hattrHandle
  apply Decoder.returns_bind
  intro data _
  apply Decoder.returns_pure
  refine ⟨_, rfl, ?_⟩
  exact ((keepsInts_nil r.parent).half hattrHandle (by decide)).half hconnHandle (by decide)

theorem findChr_unnarrowed (r : Req) :
    (findChrReqRun r).Returns fun action => Unnarrowed r action .findChr := by
  unfold findChrReqRun
  apply Decoder.returns_bind
  intro svcUuid hsvcUuid
  apply Decoder.returns_bind
  intro chrUuid hchrUuid
  apply Decoder.returns_pure
  exact ⟨svcUuid, chrUuid, rfl, keepsUuid_of_ok ((need_ok_iff _ _ _ _ _).mp hsvcUuid),
    keepsUuid_of_ok ((need_ok_iff _ _ _ _ _).mp hchrUuid)⟩

theorem smIo_keeps (r : Req) (connHandle : UInt16) (action : Int)
    (hhandle : KeepsInts r.parent [("conn_handle", connHandle.toNat)]) :
    (smIoDec r connHandle action).Returns fun req => KeepsInts r.parent req.integers := by
  have hconn : ∀ passkey, KeepsInts r.parent passkey →
      KeepsInts r.parent (("conn_handle", (connHandle.toNat : Int)) :: passkey) := by
    intro passkey hpasskey
    exact keepsInts_append r.parent [_] passkey hhandle hpasskey
  unfold smIoDec
  by_cases hoob : action = BLE_SM_IOACT_OOB
  · subst hoob
    have hother : ¬(BLE_SM_IOACT_OOB = BLE_SM_IOACT_INPUT ∨
      BLE_SM_IOACT_OOB = BLE_SM_IOACT_DISP) := by decide
    simp only [if_true]
    apply Decoder.returns_bind
    intro oobData _
    split_ifs with hlength
    · intro req hreq
      cases hreq
    · apply Decoder.returns_pure
      simp only [SmInjectIoReq.integers, hother, if_false]
      exact hconn [] (keepsInts_nil r.parent)
  · simp only [hoob, if_false]
    by_cases hpasskey : action = BLE_SM_IOACT_INPUT ∨ action = BLE_SM_IOACT_DISP
    · simp only [hpasskey, if_true]
      apply Decoder.returns_bind
      intro passkey hpass
      apply Decoder.returns_pure
      simp only [SmInjectIoReq.integers, hpasskey, if_true]
      exact hconn _ ((keepsInts_nil r.parent).word hpass (by decide))
    · simp only [hpasskey, if_false]
      split_ifs with hnumcmp
      · apply Decoder.returns_bind
        intro accept _
        apply Decoder.returns_pure
        simp only [SmInjectIoReq.integers, hpasskey, if_false]
        exact hconn [] (keepsInts_nil r.parent)
      · intro req hreq
        cases hreq

theorem smInjectIo_unnarrowed (r : Req) :
    (smInjectIoReqRun r).Returns fun action => Unnarrowed r action .smInjectIo := by
  unfold smInjectIoReqRun
  apply Decoder.returns_bind
  intro connHandle hconnHandle
  apply Decoder.returns_bind
  intro action _
  apply Decoder.returns_bind
  intro req hreq
  apply Decoder.returns_pure
  have hhandle := (keepsInts_nil r.parent).half hconnHandle (by decide)
  exact ⟨req, rfl, smIo_keeps r _ action hhandle req hreq⟩

theorem processIntBounds_number (lo hi given : Int) :
    processJsonIntBounds lo hi (.number given) =
      if given < lo ∨ hi < given then (0, some .erange) else (given, none) := by
  by_cases hout : given < lo ∨ hi < given
  · simp [processJsonIntBounds, processJsonInt, hout]
  · simp [processJsonIntBounds, processJsonInt, hout]

theorem advFlags_given (r : Req) (flags : UInt8) (h : (advFlagsDec r).result = .ok flags)
    (given : Int) (hgiven : r.parent.getObjectItem "flags" = some (.number given)) :
    (flags.toNat : Int) = given := by
  obtain ⟨found, hfound, hflags⟩ := (Decoder.bind_result_ok _ _ _).mp h
  rcases (want_ok_iff _ _ _ _ _).mp hfound with ⟨val, hval, rfl⟩ | ⟨habsent, _⟩
  · obtain ⟨hitem, hlow, hhigh⟩ := (jsonInt_ok _ _ _ _ _).mp hval
    rw [hgiven] at hitem
    cases hitem
    simp only at hflags
    split_ifs at hflags with hzero
    · cases hflags
    · obtain rfl := Except.ok.inj hflags
      exact toNat_ofInt_byte given hlow hhigh
  · simp only [jsonInt, jsonIntBounds, hgiven, processIntBounds_number] at habsent
    split_ifs at habsent <;> cases habsent

theorem advInt_given (r : Req) (key msg : String) (lo hi val : Int) (present : Bool)
    (h : (advIntDec r key msg lo hi).result = .ok (val, present)) (given : Int)
    (hgiven : r.parent.getObjectItem key = some (.number given)) :
    val = given ∧ lo ≤ given ∧ given ≤ hi ∧ present = true := by
  obtain ⟨found, hfound, hval⟩ := (Decoder.bind_result_ok _ _ _).mp h
  simp only [wantPair, jsonIntBounds, hgiven, processIntBounds_number] at hfound
  split_ifs at hfound with hout
  · cases hfound
  · obtain rfl := Except.ok.inj hfound
    cases hval
    refine ⟨rfl, ?_, ?_, rfl⟩
    · omega
    · omega

theorem slaveItvl_given (r : Req) (min max : UInt16) (present : Bool)
    (h : (slaveItvlDec r).result = .ok (min, max, present)) :
    (∀ given, r.parent.getObjectItem "slave_itvl_min" = some (.number given) →
      (min.toNat : Int) = given) ∧
    (present = true → ∀ given, r.parent.getObjectItem "slave_itvl_max" = some (.number given) →
      (max.toNat : Int) = given) := by
  obtain ⟨⟨val, found⟩, hval, hrest⟩ := (Decoder.bind_result_ok _ _ _).mp h
  have hmin := advInt_given r "slave_itvl_min" _ _ _ val found hval
  cases found with
  | true =>
      obtain ⟨maxVal, hmaxVal, hrange⟩ := (Decoder.bind_result_ok _ _ _).mp hrest
      obtain ⟨hlow, hhigh, hmax⟩ := needInt_given 0 hmaxVal
      cases hrange
      refine ⟨?_, ?_⟩
      · intro given hgiven
        obtain ⟨rfl, hfrom, hto, _⟩ := hmin given hgiven
        exact toNat_ofInt_half val hfrom hto
      · intro _ given hgiven
        obtain rfl := hmax given hgiven
        exact toNat_ofInt_half maxVal hlow hhigh
  | false =>
      cases hrest
      refine ⟨?_, ?_⟩
      · intro given hgiven
        cases (hmin given hgiven).2.2.2
      · intro hfalse
        cases hfalse

theorem advFields_keeps (r : Req) (req : AdvFieldsReq) (h : (advFieldsDec r).result = .ok req) :
    KeepsInts r.parent req.integers := by
  have hdecoded := advDecoded r req h
  obtain ⟨txPwrLvl, htxPwrLvl, hstored⟩ := hdecoded.txPwrLvl
  obtain ⟨appearance, happearance, hstored'⟩ := hdecoded.appearance
  obtain ⟨advItvl, hadvItvl, hstored''⟩ := hdecoded.advItvl
  obtain ⟨hmin, hmax⟩ := slaveItvl_given r _ _ _ hdecoded.slaveItvl
  apply keepsInts_append
  · apply keepsInts_cons
    · exact advFlags_given r req.flags hdecoded.flags
    apply keepsInts_cons
    · intro given hgiven
      obtain ⟨rfl, hlow, hhigh, _⟩ := advInt_given r _ _ _ _ _ _ htxPwrLvl given hgiven
      have hbounds : INT8_MIN = -128 ∧ INT8_MAX = 127 := ⟨rfl, rfl⟩
      rw [hstored, Int8.toInt_ofInt_of_le (by omega) (by omega)]
    apply keepsInts_cons
    · exact hmin
    apply keepsInts_cons
    · intro given hgiven
      obtain ⟨rfl, hlow, hhigh, _⟩ := advInt_given r _ _ _ _ _ _ happearance given hgiven
      rw [hstored', toNat_ofInt_half appearance hlow hhigh]
    apply keepsInts_cons
    · intro given hgiven
      obtain ⟨rfl, hlow, hhigh, _⟩ := advInt_given r _ _ _ _ _ _ hadvItvl given hgiven
      rw [hstored'', toNat_ofInt_half advItvl hlow hhigh]
    exact keepsInts_nil r.parent
  · split_ifs with hpresent
    · exact keepsInts_cons _ _ _ _ (hmax hpresent) (keepsInts_nil r.parent)
    · exact keepsInts_nil r.parent

theorem advFields_unnarrowed (r : Req) :
    (advFieldsReqRun r).Returns fun action => Unnarrowed r action .advFields := by
  rw [advFieldsReqRun_dec]
  apply Decoder.returns_bind
  intro req hreq
  apply Decoder.returns_pure
  exact ⟨req, hreq, rfl, advFields_keeps r req hreq⟩

theorem IntField.given {parent : Json} {key : String} {maxval stored : Int}
    (h : IntField parent key maxval stored) (given : Int)
    (hgiven : parent.getObjectItem key = some (.number given)) : stored = given := by
  rw [h.1] at hgiven
  cases hgiven
  rfl

theorem dsc_keeps (parent : Json) (dsc : Gatts.Dsc) (h : DscOf parent dsc) :
    KeepsDsc parent dsc := by
  obtain ⟨uuid, huuid, hknown⟩ := h.uuid
  refine ⟨⟨uuid, hknown, keepsUuid_of_ok huuid⟩, ?_⟩
  apply keepsInts_cons
  · exact h.attFlags.given
  apply keepsInts_cons
  · exact h.minKeySize.given
  exact keepsInts_nil parent

theorem fillDscs_stores (numDscs : Nat) (items : List Json) (decoded : List Gatts.Dsc)
    (dscs : Nat → Gatts.Dsc)
    (h : List.Forall₂ (fun item dsc => (jsonDsc item).result = .ok dsc) items decoded) :
    fillDscs numDscs items dscs =
      ⟨List.replicate items.length ⟨numDscs, numDscs⟩, .ok (storeDscs numDscs decoded dscs)⟩ := by
  induction h generalizing dscs with
  | nil => rfl
  | @cons item dsc _ _ hitem _ ih =>
      have hstored : ((jsonDsc item).silent : Filling Gatts.Dsc).result = .ok dsc := hitem
      rw [fillDscs, clearElem, Decoder.bind_ok _ _ () rfl]
      simp only [Decoder.bind_ok _ _ dsc hstored, ih]
      rfl

theorem storeDscs_of_ne (numDscs : Nat) (decoded : List Gatts.Dsc) (dscs : Nat → Gatts.Dsc)
    (i : Nat) (hi : i ≠ numDscs) : storeDscs numDscs decoded dscs i = dscs i := by
  induction decoded generalizing dscs with
  | nil => rfl
  | cons dsc rest ih =>
      exact (ih (Function.update dscs numDscs dsc)).trans (Function.update_of_ne hi dsc dscs)

theorem chr_keeps (junk : Nat → Gatts.Dsc) (parent : Json) (chr : Gatts.Chr)
    (h : (jsonChr junk parent).result = .ok chr) : KeepsChr parent chr := by
  obtain ⟨huuid, hflags, hsize, items, hitems, hvalid, hdscs⟩ := (jsonChr_ok parent junk chr).mp h
  refine ⟨keepsUuid_of_ok huuid, ?_, ?_⟩
  · apply keepsInts_cons
    · exact hflags.given
    apply keepsInts_cons
    · exact hsize.given
    exact keepsInts_nil parent
  · obtain ⟨decoded, hdecoded⟩ := Decoder.each_total (fun _ item => jsonDsc item) 0 items
      fun _ item hmem => (validDsc_iff item).mpr (hvalid item hmem)
    have hrelated : List.Forall₂ (fun item dsc => (jsonDsc item).result = .ok dsc)
        items decoded := by
      refine (Decoder.each_related _ _ _ _ hdecoded).imp ?_
      rintro item dsc ⟨_, _, hdsc⟩
      exact hdsc
    refine ⟨items, decoded, junk, hitems, hrelated.imp ?_, fillDscs_stores _ _ _ _ hrelated, ?_⟩
    · intro item dsc hdsc
      exact ⟨hdsc, dsc_keeps item dsc ((jsonDsc_ok item dsc).mp hdsc)⟩
    · rw [hdscs]
      apply List.map_congr_left
      intro i hi
      exact (storeDscs_of_ne _ _ _ _ (List.mem_range.mp hi).ne).symm

theorem svc_keeps (junk : Nat → Nat → Gatts.Dsc) (parent : Json) (svc : Gatts.Svc)
    (h : (jsonSvc junk parent).result = .ok svc) : KeepsSvc parent svc := by
  obtain ⟨_, huuid, items, hitems, _, hchrs⟩ := jsonSvc_ok parent junk svc h
  refine ⟨keepsUuid_of_ok huuid, items, hitems, hchrs.imp ?_⟩
  rintro item chr ⟨_, ci, hchr⟩
  exact chr_keeps (junk ci) item chr hchr

theorem addSvcs_unnarrowed (r : Req) :
    (addSvcsReqRun r).Returns fun action => Unnarrowed r action .addSvcs := by
  unfold addSvcsReqRun
  apply Decoder.returns_bind
  intro svcs hsvcs
  apply Decoder.returns_pure
  obtain ⟨items, hitems, hdecoded⟩ := (Decoder.bind_result_ok _ _ _).mp hsvcs
  have harray := (jsonArr_ok _ _ _).mp ((need_ok_iff _ _ _ _ _).mp hitems)
  refine ⟨items, svcs, harray, rfl, ?_⟩
  have heach : (Decoder.each (fun si item => jsonSvc (r.junk.dscs si) item) 0 items).result =
      .ok svcs := by
    simp only [Decoder.mapExit] at hdecoded
    generalize Decoder.each (fun si item => jsonSvc (r.junk.dscs si) item) 0 items = decoder
      at hdecoded ⊢
    cases hresult : decoder.result with
    | error e => simp [hresult, Except.mapError] at hdecoded
    | ok decoded => simpa [hresult, Except.mapError] using hdecoded
  refine (Decoder.each_related _ _ _ _ heach).imp ?_
  rintro item svc ⟨_, si, hsvc⟩
  exact svc_keeps (r.junk.dscs si) item svc hsvc

theorem unnarrowed_of_accepted (type : MsgType) (run : ReqRun)
    (hrun : reqDispatchFind type = some run) (r : Req) :
    (run r).Returns fun action => Unnarrowed r action type := by
  cases type <;> cases hrun
  case connect => exact connect_unnarrowed r
  case terminate => exact terminate_unnarrowed r
  case discAllSvcs => exact handle_unnarrowed r _ _
  case discSvcUuid => exact discSvcUuid_unnarrowed r
  case discAllChrs => exact range_unnarrowed r _
  case discChrUuid => exact discChrUuid_unnarrowed r
  case discAllDscs => exact range_unnarrowed r _
  case write => exact write_unnarrowed r _ _
  case writeCmd => exact write_unnarrowed r _ _
  case exchangeMtu => exact handle_unnarrowed r _ _
  case scan => exact scan_unnarrowed r
  case setPreferredMtu => exact setPreferredMtu_unnarrowed r
  case encInitiate => exact handle_unnarrowed r _ _
  case connFind => exact handle_unnarrowed r _ _
  case advStart => exact advStart_unnarrowed r
  case advFields => exact advFields_unnarrowed r
  case addSvcs => exact addSvcs_unnarrowed r
  case accessStatus => exact accessStatus_unnarrowed r
  case notify => exact notify_unnarrowed r
  case findChr => exact findChr_unnarrowed r
  case smInjectIo => exact smInjectIo_unnarrowed r
  all_goals
    intro _ _
    trivial

-- The header is refused, or its sequence number is the JSON integer.
def HeaderUnnarrowed (root : Json) : Prop :=
  (∃ e, msgHdrDec root = .error e ∧ e.1.code ≠ 0) ∨
    ∃ hdr, msgHdrDec root = .ok hdr ∧ KeepsInts root [("seq", hdr.seq.toNat)]

-- The request is refused with a status other than 0 and without any effect, or its
-- integers are what the members hold.
def RefusedOrUnnarrowed (type : MsgType) (run : ReqRun) (r : Req) : Prop :=
  (∃ e, (run r).result = .error e ∧ ∀ host rsp world, ∃ answer,
    runReq run r host rsp world = .ok ⟨e.ret, answer⟩ ∧ answer.rsp.status ≠ 0 ∧
      answer.world = world ∧ answer.calls = []) ∨
    ∃ action, (run r).result = .ok action ∧ Unnarrowed r action type

theorem header_unnarrowed (root : Json) : HeaderUnnarrowed root := by
  cases hhdr : msgHdrDec root with
  | error e => exact Or.inl ⟨e, hhdr, e.1.code_ne_zero⟩
  | ok hdr =>
      obtain ⟨n, _, _, hseq, hstored⟩ := msgHdrDec_ok root hdr hhdr
      obtain ⟨hitem, hlow, hhigh⟩ := (jsonInt_ok _ _ _ _ _).mp hseq
      have hmax : ((BHD_SEQ_MAX.toNat : Nat) : Int) = 4294967280 := rfl
      refine Or.inr ⟨hdr, hhdr, ?_⟩
      apply keepsInts_cons
      · intro given hgiven
        rw [hitem] at hgiven
        cases hgiven
        rw [hstored, toNat_ofInt_word _ hlow (by omega)]
      exact keepsInts_nil root

theorem integers_unnarrowed (type : MsgType) (run : ReqRun)
    (hrun : reqDispatchFind type = some run) (r : Req) :
    HeaderUnnarrowed r.parent ∧ RefusedOrUnnarrowed type run r := by
  refine ⟨header_unnarrowed r.parent, ?_⟩
  cases hresult : (run r).result with
  | error e =>
      refine Or.inl ⟨e, hresult, ?_⟩
      intro host rsp world
      refine ⟨_, runReq_exit run r host rsp world e hresult, ?_, rfl, rfl⟩
      show (e.apply rsp).status ≠ 0
      rw [e.apply_status]
      exact e.rc.code_ne_zero
  | ok action =>
      exact Or.inr ⟨action, hresult, unnarrowed_of_accepted type run hrun r action hresult⟩

-- The least power level, and the greatest interval.
def extremeParent : Json :=
  .object [(ascii "tx_pwr_lvl", .number (-128)), (ascii "adv_itvl", .number 65535)]

theorem extreme_unnarrowed :
    (advFieldsReqRun ⟨extremeParent, 7, zeroJunk⟩).result.isOk = true ∧
      HeaderUnnarrowed extremeParent ∧
        RefusedOrUnnarrowed .advFields advFieldsReqRun ⟨extremeParent, 7, zeroJunk⟩ :=
  ⟨rfl, integers_unnarrowed .advFields advFieldsReqRun rfl ⟨extremeParent, 7, zeroJunk⟩⟩

end Blehostd
