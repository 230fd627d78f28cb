import Blehostd.Requests.Theorems

namespace Blehostd

def AdvFieldsReq.zero : AdvFieldsReq :=
  { flags := 0
    uuids16 := []
    uuids16IsComplete := false
    uuids32 := []
    uuids32IsComplete := false
    uuids128 := []
    uuids128IsComplete := false
    name := []
    nameIsComplete := false
    txPwrLvl := 0
    txPwrLvlIsPresent := false
    slaveItvlMin := 0
    slaveItvlMax := 0
    slaveItvlRangeIsPresent := false
    svcDataUuid16 := []
    publicTgtAddrs := []
    appearance := 0
    appearanceIsPresent := false
    advItvl := 0
    advItvlIsPresent := false
    svcDataUuid32 := []
    svcDataUuid128 := []
    uri := []
    mfgData := [] }

def advListDec {α : Type} (r : Req) (name msg : String)
    (f : Json → String → Except ErrCode (List α)) : ReqDecoder (List α) := do
  let found ← want r.parent name f (.build msg)
  pure (found.getD [])

-- The request as bhd_gap_adv_fields gets it.
def advFieldsDec (r : Req) : ReqDecoder AdvFieldsReq := do
  let flags ← advFlagsDec r
  let uuids16 ← advListDec r "uuids16" "invalid uuids16"
    (jsonArrUint16 (BLE_HS_ADV_MAX_FIELD_SZ / 2) 0 0xffff)
  let uuids16IsComplete ← advFlagDec r "uuids16_is_complete"
    (.build "invalid uuids16_is_complete value")
  let uuids32 ← advListDec r "uuids32" "invalid uuids32"
    (jsonArrUint32 (BLE_HS_ADV_MAX_FIELD_SZ / 4) 0 0xffff)
  let uuids32IsComplete ← advFlagDec r "uuids32_is_complete"
    (.build "invalid uuids32_is_complete value")
  let uuids128 ← advListDec r "uuids128" "invalid uuids128"
    (jsonArrUuid (BLE_HS_ADV_MAX_FIELD_SZ / 16))
  let uuids128IsComplete ← advFlagDec r "uuids128_is_complete"
    (.build "invalid uuids128_is_complete value")
  let name ← advTextDec r "name" "invalid name"
  let nameIsComplete ← advFlagDec r "name_is_complete" (.buildRc "invalid name_is_complete value")
  let txPwrLvl ← advIntDec r "tx_pwr_lvl" "invalid tx_pwr_lvl" INT8_MIN INT8_MAX
  let slaveItvl ← slaveItvlDec r
  let svcDataUuid16 ← advBytesDec r "svc_data_uuid16" "invalid svc_data_uuid16"
  let publicTgtAddrs ← advListDec r "public_tgt_addrs" "invalid public_target_addrs"
    (jsonArrAddr (BLE_HS_ADV_MAX_FIELD_SZ / 6))
  let appearance ← advIntDec r "appearance" "invalid appearance" 0 UINT16_MAX
  let advItvl ← advIntDec r "adv_itvl" "invalid adv_itvl" 0 UINT16_MAX
  let svcDataUuid32 ← advBytesDec r "svc_data_uuid32" "invalid svc_data_uuid32"
  let svcDataUuid128 ← advBytesDec r "svc_data_uuid128" "invalid svc_data_uuid128"
  let uri ← advTextDec r "uri" "invalid uri"
  let mfgData ← advBytesDec r "mfg_data" "invalid mfg_data"
  pure
    { flags := flags
      uuids16 := uuids16
      uuids16IsComplete := uuids16IsComplete
      uuids32 := uuids32
      uuids32IsComplete := uuids32IsComplete
      uuids128 := uuids128.map (uuidValue r.junk.uuidValue)
      uuids128IsComplete := uuids128IsComplete
      name := name
      nameIsComplete := nameIsComplete
      txPwrLvl := Int8.ofInt txPwrLvl.1
      txPwrLvlIsPresent := txPwrLvl.2
      slaveItvlMin := slaveItvl.1
      slaveItvlMax := slaveItvl.2.1
      slaveItvlRangeIsPresent := slaveItvl.2.2
      svcDataUuid16 := svcDataUuid16
      publicTgtAddrs := publicTgtAddrs
      appearance := UInt16.ofInt appearance.1
      appearanceIsPresent := appearance.2
      advItvl := UInt16.ofInt advItvl.1
      advItvlIsPresent := advItvl.2
      svcDataUuid32 := svcDataUuid32
      svcDataUuid128 := svcDataUuid128
      uri := uri
      mfgData := mfgData }

theorem advFieldsReqRun_dec (r : Req) :
    advFieldsReqRun r = advFieldsDec r >>= fun req => pure (gapAdvFields req) := by
  simp only [advFieldsReqRun, advFieldsDec, advListDec, Decoder.bind_assoc, Decoder.pure_bind]

-- Which lookup each field of an accepted request comes from.
structure AdvDecoded (r : Req) (req : AdvFieldsReq) : Prop where
  flags : (advFlagsDec r).result = .ok req.flags
  uuids16 : (advListDec r "uuids16" "invalid uuids16"
    (jsonArrUint16 (BLE_HS_ADV_MAX_FIELD_SZ / 2) 0 0xffff)).result = .ok req.uuids16
  uuids16IsComplete : (advFlagDec r "uuids16_is_complete"
    (.build "invalid uuids16_is_complete value")).result = .ok req.uuids16IsComplete
  uuids32 : (advListDec r "uuids32" "invalid uuids32"
    (jsonArrUint32 (BLE_HS_ADV_MAX_FIELD_SZ / 4) 0 0xffff)).result = .ok req.uuids32
  uuids32IsComplete : (advFlagDec r "uuids32_is_complete"
    (.build "invalid uuids32_is_complete value")).result = .ok req.uuids32IsComplete
  uuids128 : ∃ uuids, (advListDec r "uuids128" "invalid uuids128"
    (jsonArrUuid (BLE_HS_ADV_MAX_FIELD_SZ / 16))).result = .ok uuids ∧
      req.uuids128 = uuids.map (uuidValue r.junk.uuidValue)
  uuids128IsComplete : (advFlagDec r "uuids128_is_complete"
    (.build "invalid uuids128_is_complete value")).result = .ok req.uuids128IsComplete
  name : (advTextDec r "name" "invalid name").result = .ok req.name
  nameIsComplete : (advFlagDec r "name_is_complete"
    (.buildRc "invalid name_is_complete value")).result = .ok req.nameIsComplete
  txPwrLvl : ∃ val, (advIntDec r "tx_pwr_lvl" "invalid tx_pwr_lvl" INT8_MIN INT8_MAX).result =
    .ok (val, req.txPwrLvlIsPresent) ∧ req.txPwrLvl = Int8.ofInt val
  slaveItvl : (slaveItvlDec r).result =
    .ok (req.slaveItvlMin, req.slaveItvlMax, req.slaveItvlRangeIsPresent)
  svcDataUuid16 : (advBytesDec r "svc_data_uuid16" "invalid svc_data_uuid16").result =
    .ok req.svcDataUuid16
  publicTgtAddrs : (advListDec r "public_tgt_addrs" "invalid public_target_addrs"
    (jsonArrAddr (BLE_HS_ADV_MAX_FIELD_SZ / 6))).result = .ok req.publicTgtAddrs
  appearance : ∃ val, (advIntDec r "appearance" "invalid appearance" 0 UINT16_MAX).result =
    .ok (val, req.appearanceIsPresent) ∧ req.appearance = UInt16.ofInt val
  advItvl : ∃ val, (advIntDec r "adv_itvl" "invalid adv_itvl" 0 UINT16_MAX).result =
    .ok (val, req.advItvlIsPresent) ∧ req.advItvl = UInt16.ofInt val
  svcDataUuid32 : (advBytesDec r "svc_data_uuid32" "invalid svc_data_uuid32").result =
    .ok req.svcDataUuid32
  svcDataUuid128 : (advBytesDec r "svc_data_uuid128" "invalid svc_data_uuid128").result =
    .ok req.svcDataUuid128
  uri : (advTextDec r "uri" "invalid uri").result = .ok req.uri
  mfgData : (advBytesDec r "mfg_data" "invalid mfg_data").result = .ok req.mfgData

theorem advDecoded (r : Req) (req : AdvFieldsReq) (h : (advFieldsDec r).result = .ok req) :
    AdvDecoded r req := by
  simp only [advFieldsDec, Decoder.bind_result_ok] at h
  obtain ⟨flags, hflags, uuids16, huuids16, complete16, hcomplete16, uuids32, huuids32, complete32,
    hcomplete32, uuids128, huuids128, complete128, hcomplete128, name, hname, completeName,
    hcompleteName, txPwrLvl, htxPwrLvl, slaveItvl, hslaveItvl, data16, hdata16, addrs, haddrs,
    appearance, happearance, advItvl, hadvItvl, data32, hdata32, data128, hdata128, uri, huri,
    mfgData, hmfgData, hreq⟩ := h
  obtain rfl := Except.ok.inj hreq
  exact ⟨hflags, huuids16, hcomplete16, huuids32, hcomplete32, ⟨uuids128, huuids128, rfl⟩,
    hcomplete128, hname, hcompleteName, ⟨txPwrLvl.1, htxPwrLvl, rfl⟩, hslaveItvl, hdata16, haddrs,
    ⟨appearance.1, happearance, rfl⟩, ⟨advItvl.1, hadvItvl, rfl⟩, hdata32, hdata128, huri, hmfgData⟩

theorem advFieldsDec_of (r : Req) (req : AdvFieldsReq) (h : AdvDecoded r req) :
    (advFieldsDec r).result = .ok req := by
  obtain ⟨uuids, huuids, hvalues⟩ := h.uuids128
  obtain ⟨txPwrLvl, htxPwrLvl, hlevel⟩ := h.txPwrLvl
  obtain ⟨appearance, happearance, hlook⟩ := h.appearance
  obtain ⟨advItvl, hadvItvl, hitvl⟩ := h.advItvl
  simp only [advFieldsDec, Decoder.bind_result_ok]
  refine ⟨_, h.flags, _, h.uuids16, _, h.uuids16IsComplete, _, h.uuids32, _, h.uuids32IsComplete,
    _, huuids, _, h.uuids128IsComplete, _, h.name, _, h.nameIsComplete, _, htxPwrLvl, _,
    h.slaveItvl, _, h.svcDataUuid16, _, h.publicTgtAddrs, _, happearance, _, hadvItvl, _,
    h.svcDataUuid32, _, h.svcDataUuid128, _, h.uri, _, h.mfgData, ?_⟩
  simp only [← hvalues, ← hlevel, ← hlook, ← hitvl]
  rfl

-- slave_itvl_min and slave_itvl_max are one option, which is there with the first.
inductive AdvOption where
  | flags | uuids16 | uuids16IsComplete | uuids32 | uuids32IsComplete | uuids128
  | uuids128IsComplete | name | nameIsComplete | txPwrLvl | slaveItvl | svcDataUuid16
  | publicTgtAddrs | appearance | advItvl | svcDataUuid32 | svcDataUuid128 | uri | mfgData
deriving DecidableEq, Repr

namespace AdvOption

def key : AdvOption → String
  | flags => "flags"
  | uuids16 => "uuids16"
  | uuids16IsComplete => "uuids16_is_complete"
  | uuids32 => "uuids32"
  | uuids32IsComplete => "uuids32_is_complete"
  | uuids128 => "uuids128"
  | uuids128IsComplete => "uuids128_is_complete"
  | name => "name"
  | nameIsComplete => "name_is_complete"
  | txPwrLvl => "tx_pwr_lvl"
  | slaveItvl => "slave_itvl_min"
  | svcDataUuid16 => "svc_data_uuid16"
  | publicTgtAddrs => "public_tgt_addrs"
  | appearance => "appearance"
  | advItvl => "adv_itvl"
  | svcDataUuid32 => "svc_data_uuid32"
  | svcDataUuid128 => "svc_data_uuid128"
  | uri => "uri"
  | mfgData => "mfg_data"

def Absent (o : AdvOption) (parent : Json) : Prop :=
  parent.getObjectItem o.key = none

-- Two objects that give the option in the same way.
def Same (o : AdvOption) (parent parent' : Json) : Prop :=
  parent.getObjectItem o.key = parent'.getObjectItem o.key ∧
    (o = slaveItvl →
      parent.getObjectItem "slave_itvl_max" = parent'.getObjectItem "slave_itvl_max")

-- The members of the request that belong to the option, and zero in the others.
def part (req : AdvFieldsReq) : AdvOption → AdvFieldsReq
  | flags => { AdvFieldsReq.zero with flags := req.flags }
  | uuids16 => { AdvFieldsReq.zero with uuids16 := req.uuids16 }
  | uuids16IsComplete => { AdvFieldsReq.zero with uuids16IsComplete := req.uuids16IsComplete }
  | uuids32 => { AdvFieldsReq.zero with uuids32 := req.uuids32 }
  | uuids32IsComplete => { AdvFieldsReq.zero with uuids32IsComplete := req.uuids32IsComplete }
  | uuids128 => { AdvFieldsReq.zero with uuids128 := req.uuids128 }
  | uuids128IsComplete => { AdvFieldsReq.zero with uuids128IsComplete := req.uuids128IsComplete }
  | name => { AdvFieldsReq.zero with name := req.name }
  | nameIsComplete => { AdvFieldsReq.zero with nameIsComplete := req.nameIsComplete }
  | txPwrLvl =>
      { AdvFieldsReq.zero with
        txPwrLvl := req.txPwrLvl
        txPwrLvlIsPresent := req.txPwrLvlIsPresent }
  | slaveItvl =>
      { AdvFieldsReq.zero with
        slaveItvlMin := req.slaveItvlMin
        slaveItvlMax := req.slaveItvlMax
        slaveItvlRangeIsPresent := req.slaveItvlRangeIsPresent }
  | svcDataUuid16 => { AdvFieldsReq.zero with svcDataUuid16 := req.svcDataUuid16 }
  | publicTgtAddrs => { AdvFieldsReq.zero with publicTgtAddrs := req.publicTgtAddrs }
  | appearance =>
      { AdvFieldsReq.zero with
        appearance := req.appearance
        appearanceIsPresent := req.appearanceIsPresent }
  | advItvl =>
      { AdvFieldsReq.zero with
        advItvl := req.advItvl
        advItvlIsPresent := req.advItvlIsPresent }
  | svcDataUuid32 => { AdvFieldsReq.zero with svcDataUuid32 := req.svcDataUuid32 }
  | svcDataUuid128 => { AdvFieldsReq.zero with svcDataUuid128 := req.svcDataUuid128 }
  | uri => { AdvFieldsReq.zero with uri := req.uri }
  | mfgData => { AdvFieldsReq.zero with mfgData := req.mfgData }

end AdvOption

section Members

variable {α : Type}

-- A field that is decoded from its member alone.
def OfMember (f : Json → String → Except ErrCode α) : Prop :=
  ∃ process, f = member process

theorem ofMember_arr : OfMember jsonArr :=
  ⟨_, rfl⟩

theorem ofMember_bind {β : Type} (f : Json → String → Except ErrCode α) (hf : OfMember f)
    (g : α → Except ErrCode β) : OfMember fun parent name => f parent name >>= g := by
  obtain ⟨process, rfl⟩ := hf
  refine ⟨fun item => process item >>= g, ?_⟩
  funext parent name
  unfold member
  cases parent.getObjectItem name <;> rfl

theorem ofMember_arrGen (maxElems : Nat) (process : Json → Except ErrCode α) :
    OfMember (jsonArrGen maxElems process) :=
  ofMember_bind jsonArr ofMember_arr _

theorem ofMember_arrUint16 (maxElems : Nat) (minval maxval : UInt16) :
    OfMember (jsonArrUint16 maxElems minval maxval) :=
  ofMember_bind _ (ofMember_arrGen maxElems _) _

theorem ofMember_arrUint32 (maxElems : Nat) (minval maxval : UInt32) :
    OfMember (jsonArrUint32 maxElems minval maxval) :=
  ofMember_bind _ (ofMember_arrGen maxElems _) _

theorem OfMember.absent {f : Json → String → Except ErrCode α} (hf : OfMember f) (parent : Json)
    (name : String) (h : parent.getObjectItem name = none) : f parent name = .error .enoent := by
  obtain ⟨process, rfl⟩ := hf
  simp only [member, h]

theorem OfMember.same {f : Json → String → Except ErrCode α} (hf : OfMember f)
    (parent parent' : Json) (name : String)
    (h : parent.getObjectItem name = parent'.getObjectItem name) :
    f parent name = f parent' name := by
  obtain ⟨process, rfl⟩ := hf
  simp only [member, h]

end Members

theorem ofMember_int (minval maxval : Int) : OfMember (jsonInt minval maxval) := by
  refine ⟨fun item => checked (processJsonIntBounds minval maxval item).1
    (processJsonIntBounds minval maxval item).2, ?_⟩
  funext parent name
  unfold jsonInt jsonIntBounds member
  cases parent.getObjectItem name <;> rfl

theorem ofMember_string : OfMember jsonString :=
  ⟨_, rfl⟩

theorem ofMember_hexString (maxLen : Nat) : OfMember (jsonHexString maxLen) :=
  ⟨_, rfl⟩

theorem ofMember_arrAddr (maxElems : Nat) : OfMember (jsonArrAddr maxElems) :=
  ofMember_arrGen maxElems _

theorem ofMember_arrUuid (maxElems : Nat) : OfMember (jsonArrUuid maxElems) :=
  ofMember_arrGen maxElems _

section Absence

variable (r : Req)

theorem advListDec_absent {α : Type} (name msg : String)
    (f : Json → String → Except ErrCode (List α)) (hf : OfMember f)
    (h : r.parent.getObjectItem name = none) : (advListDec r name msg f).result = .ok [] := by
  rw [advListDec, Decoder.result_bind _ _ _ (want_absent _ _ _ _ (hf.absent r.parent name h))]
  rfl

theorem advFlagsDec_absent (h : r.parent.getObjectItem "flags" = none) :
    (advFlagsDec r).result = .ok 0 := by
  have hint := (ofMember_int 0 UINT8_MAX).absent r.parent "flags" h
  rw [advFlagsDec, Decoder.result_bind _ _ _ (want_absent _ _ _ _ hint)]
  rfl

theorem advTextDec_absent (name msg : String) (h : r.parent.getObjectItem name = none) :
    (advTextDec r name msg).result = .ok [] := by
  have htext := ofMember_string.absent r.parent name h
  rw [advTextDec, Decoder.result_bind _ _ _ (want_absent _ _ _ _ htext)]
  rfl

theorem advBytesDec_absent (name msg : String) (h : r.parent.getObjectItem name = none) :
    (advBytesDec r name msg).result = .ok [] := by
  have hbytes := (ofMember_hexString BLE_HS_ADV_MAX_FIELD_SZ).absent r.parent name h
  rw [advBytesDec, Decoder.result_bind _ _ _ (want_absent _ _ _ _ hbytes)]
  rfl

-- The -1 of bhd_json_bool sets the bit of an absent flag.
theorem advFlagDec_absent (name : String) (exit : ErrCode → Exit)
    (h : r.parent.getObjectItem name = none) : (advFlagDec r name exit).result = .ok true := by
  simp only [advFlagDec, wantPair, jsonBool, h, if_true]
  rfl

theorem advIntDec_absent (name msg : String) (minval maxval : Int)
    (h : r.parent.getObjectItem name = none) :
    (advIntDec r name msg minval maxval).result = .ok (0, false) := by
  simp only [advIntDec, wantPair, jsonIntBounds, h, if_true]
  rfl

theorem slaveItvlDec_absent (h : r.parent.getObjectItem "slave_itvl_min" = none) :
    (slaveItvlDec r).result = .ok (0, 0, false) := by
  rw [slaveItvlDec, Decoder.result_bind _ _ _ (advIntDec_absent r "slave_itvl_min" _ _ _ h)]
  rfl

end Absence

section Agreement

variable (r r' : Req)

theorem advListDec_same {α : Type} (name msg : String)
    (f : Json → String → Except ErrCode (List α)) (hf : OfMember f)
    (h : r.parent.getObjectItem name = r'.parent.getObjectItem name) :
    advListDec r name msg f = advListDec r' name msg f := by
  simp only [advListDec, want, hf.same r.parent r'.parent name h]

theorem advFlagsDec_same (h : r.parent.getObjectItem "flags" = r'.parent.getObjectItem "flags") :
    advFlagsDec r = advFlagsDec r' := by
  simp only [advFlagsDec, want, (ofMember_int 0 UINT8_MAX).same r.parent r'.parent "flags" h]

theorem advTextDec_same (name msg : String)
    (h : r.parent.getObjectItem name = r'.parent.getObjectItem name) :
    advTextDec r name msg = advTextDec r' name msg := by
  simp only [advTextDec, want, ofMember_string.same r.parent r'.parent name h]

theorem advBytesDec_same (name msg : String)
    (h : r.parent.getObjectItem name = r'.parent.getObjectItem name) :
    advBytesDec r name msg = advBytesDec r' name msg := by
  simp only [advBytesDec, want, (ofMember_hexString _).same r.parent r'.parent name h]

theorem advFlagDec_same (name : String) (exit : ErrCode → Exit)
    (h : r.parent.getObjectItem name = r'.parent.getObjectItem name) :
    advFlagDec r name exit = advFlagDec r' name exit := by
  simp only [advFlagDec, wantPair, jsonBool, h]

theorem advIntDec_same (name msg : String) (minval maxval : Int)
    (h : r.parent.getObjectItem name = r'.parent.getObjectItem name) :
    advIntDec r name msg minval maxval = advIntDec r' name msg minval maxval := by
  simp only [advIntDec, wantPair, jsonIntBounds, h]

theorem slaveItvlDec_same
    (hmin : r.parent.getObjectItem "slave_itvl_min" = r'.parent.getObjectItem "slave_itvl_min")
    (hmax : r.parent.getObjectItem "slave_itvl_max" = r'.parent.getObjectItem "slave_itvl_max") :
    slaveItvlDec r = slaveItvlDec r' := by
  simp only [slaveItvlDec, advIntDec_same r r' "slave_itvl_min" _ _ _ hmin, need,
    (ofMember_int 0 UINT16_MAX).same r.parent r'.parent "slave_itvl_max" hmax]

end Agreement

-- What one option adds to the cleared request.
def AdvOption.dec (r : Req) : AdvOption → Except Exit AdvFieldsReq
  | flags => (advFlagsDec r).result.map fun val => { AdvFieldsReq.zero with flags := val }
  | uuids16 =>
      (advListDec r "uuids16" "invalid uuids16"
        (jsonArrUint16 (BLE_HS_ADV_MAX_FIELD_SZ / 2) 0 0xffff)).result.map fun vals =>
          { AdvFieldsReq.zero with uuids16 := vals }
  | uuids16IsComplete =>
      (advFlagDec r "uuids16_is_complete" (.build "invalid uuids16_is_complete value")).result.map
        fun val => { AdvFieldsReq.zero with uuids16IsComplete := val }
  | uuids32 =>
      (advListDec r "uuids32" "invalid uuids32"
        (jsonArrUint32 (BLE_HS_ADV_MAX_FIELD_SZ / 4) 0 0xffff)).result.map fun vals =>
          { AdvFieldsReq.zero with uuids32 := vals }
  | uuids32IsComplete =>
      (advFlagDec r "uuids32_is_complete" (.build "invalid uuids32_is_complete value")).result.map
        fun val => { AdvFieldsReq.zero with uuids32IsComplete := val }
  | uuids128 =>
      (advListDec r "uuids128" "invalid uuids128"
        (jsonArrUuid (BLE_HS_ADV_MAX_FIELD_SZ / 16))).result.map fun uuids =>
          { AdvFieldsReq.zero with uuids128 := uuids.map (uuidValue r.junk.uuidValue) }
  | uuids128IsComplete =>
      (advFlagDec r "uuids128_is_complete" (.build "invalid uuids128_is_complete value")).result.map
        fun val => { AdvFieldsReq.zero with uuids128IsComplete := val }
  | name => (advTextDec r "name" "invalid name").result.map fun text =>
      { AdvFieldsReq.zero with name := text }
  | nameIsComplete =>
      (advFlagDec r "name_is_complete" (.buildRc "invalid name_is_complete value")).result.map
        fun val => { AdvFieldsReq.zero with nameIsComplete := val }
  | txPwrLvl =>
      (advIntDec r "tx_pwr_lvl" "invalid tx_pwr_lvl" INT8_MIN INT8_MAX).result.map fun val =>
        { AdvFieldsReq.zero with
          txPwrLvl := Int8.ofInt val.1
          txPwrLvlIsPresent := val.2 }
  | slaveItvl =>
      (slaveItvlDec r).result.map fun itvl =>
        { AdvFieldsReq.zero with
          slaveItvlMin := itvl.1
          slaveItvlMax := itvl.2.1
          slaveItvlRangeIsPresent := itvl.2.2 }
  | svcDataUuid16 => (advBytesDec r "svc_data_uuid16" "invalid svc_data_uuid16").result.map
      fun bytes => { AdvFieldsReq.zero with svcDataUuid16 := bytes }
  | publicTgtAddrs =>
      (advListDec r "public_tgt_addrs" "invalid public_target_addrs"
        (jsonArrAddr (BLE_HS_ADV_MAX_FIELD_SZ / 6))).result.map fun addrs =>
          { AdvFieldsReq.zero with publicTgtAddrs := addrs }
  | appearance =>
      (advIntDec r "appearance" "invalid appearance" 0 UINT16_MAX).result.map fun val =>
        { AdvFieldsReq.zero with
          appearance := UInt16.ofInt val.1
          appearanceIsPresent := val.2 }
  | advItvl =>
      (advIntDec r "adv_itvl" "invalid adv_itvl" 0 UINT16_MAX).result.map fun val =>
        { AdvFieldsReq.zero with
          advItvl := UInt16.ofInt val.1
          advItvlIsPresent := val.2 }
  | svcDataUuid32 => (advBytesDec r "svc_data_uuid32" "invalid svc_data_uuid32").result.map
      fun bytes => { AdvFieldsReq.zero with svcDataUuid32 := bytes }
  | svcDataUuid128 => (advBytesDec r "svc_data_uuid128" "invalid svc_data_uuid128").result.map
      fun bytes => { AdvFieldsReq.zero with svcDataUuid128 := bytes }
  | uri => (advTextDec r "uri" "invalid uri").result.map fun text =>
      { AdvFieldsReq.zero with uri := text }
  | mfgData => (advBytesDec r "mfg_data" "invalid mfg_data").result.map fun bytes =>
      { AdvFieldsReq.zero with mfgData := bytes }

theorem AdvDecoded.part {r : Req} {req : AdvFieldsReq} (h : AdvDecoded r req) (o : AdvOption) :
    o.dec r = .ok (o.part req) := by
  cases o with
  | flags => rw [AdvOption.dec, h.flags]; rfl
  | uuids16 => rw [AdvOption.dec, h.uuids16]; rfl
  | uuids16IsComplete => rw [AdvOption.dec, h.uuids16IsComplete]; rfl
  | uuids32 => rw [AdvOption.dec, h.uuids32]; rfl
  | uuids32IsComplete => rw [AdvOption.dec, h.uuids32IsComplete]; rfl
  | uuids128 =>
      obtain ⟨uuids, huuids, hreq⟩ := h.uuids128
      rw [AdvOption.dec, huuids, AdvOption.part, hreq]
      rfl
  | uuids128IsComplete => rw [AdvOption.dec, h.uuids128IsComplete]; rfl
  | name => rw [AdvOption.dec, h.name]; rfl
  | nameIsComplete => rw [AdvOption.dec, h.nameIsComplete]; rfl
  | txPwrLvl =>
      obtain ⟨val, hval, hreq⟩ := h.txPwrLvl
      rw [AdvOption.dec, hval, AdvOption.part, hreq]
      rfl
  | slaveItvl => rw [AdvOption.dec, h.slaveItvl]; rfl
  | svcDataUuid16 => rw [AdvOption.dec, h.svcDataUuid16]; rfl
  | publicTgtAddrs => rw [AdvOption.dec, h.publicTgtAddrs]; rfl
  | appearance =>
      obtain ⟨val, hval, hreq⟩ := h.appearance
      rw [AdvOption.dec, hval, AdvOption.part, hreq]
      rfl
  | advItvl =>
      obtain ⟨val, hval, hreq⟩ := h.advItvl
      rw [AdvOption.dec, hval, AdvOption.part, hreq]
      rfl
  | svcDataUuid32 => rw [AdvOption.dec, h.svcDataUuid32]; rfl
  | svcDataUuid128 => rw [AdvOption.dec, h.svcDataUuid128]; rfl
  | uri => rw [AdvOption.dec, h.uri]; rfl
  | mfgData => rw [AdvOption.dec, h.mfgData]; rfl

def AdvOption.isComplete : AdvOption → Bool
  | uuids16IsComplete | uuids32IsComplete | uuids128IsComplete | nameIsComplete => true
  | _ => false

theorem AdvOption.dec_absent (r : Req) (o : AdvOption) (h : o.Absent r.parent)
    (ho : o.isComplete = false) : o.dec r = .ok AdvFieldsReq.zero := by
  cases o with
  | flags => rw [dec, advFlagsDec_absent r h]; rfl
  | uuids16 => rw [dec, advListDec_absent r "uuids16" _ _ (ofMember_arrUint16 _ _ _) h]; rfl
  | uuids32 => rw [dec, advListDec_absent r "uuids32" _ _ (ofMember_arrUint32 _ _ _) h]; rfl
  | uuids128 => rw [dec, advListDec_absent r "uuids128" _ _ (ofMember_arrUuid _) h]; rfl
  | name => rw [dec, advTextDec_absent r "name" _ h]; rfl
  | txPwrLvl => rw [dec, advIntDec_absent r "tx_pwr_lvl" _ _ _ h]; rfl
  | slaveItvl => rw [dec, slaveItvlDec_absent r h]; rfl
  | svcDataUuid16 => rw [dec, advBytesDec_absent r "svc_data_uuid16" _ h]; rfl
  | publicTgtAddrs =>
      rw [dec, advListDec_absent r "public_tgt_addrs" _ _ (ofMember_arrAddr _) h]
      rfl
  | appearance => rw [dec, advIntDec_absent r "appearance" _ _ _ h]; rfl
  | advItvl => rw [dec, advIntDec_absent r "adv_itvl" _ _ _ h]; rfl
  | svcDataUuid32 => rw [dec, advBytesDec_absent r "svc_data_uuid32" _ h]; rfl
  | svcDataUuid128 => rw [dec, advBytesDec_absent r "svc_data_uuid128" _ h]; rfl
  | uri => rw [dec, advTextDec_absent r "uri" _ h]; rfl
  | mfgData => rw [dec, advBytesDec_absent r "mfg_data" _ h]; rfl
  | uuids16IsComplete => cases ho
  | uuids32IsComplete => cases ho
  | uuids128IsComplete => cases ho
  | nameIsComplete => cases ho

theorem AdvOption.dec_same (r r' : Req) (o : AdvOption) (h : o.Same r.parent r'.parent)
    (hjunk : r'.junk = r.junk) : o.dec r = o.dec r' := by
  obtain ⟨hkey, hmax⟩ := h
  cases o with
  | flags => rw [dec, dec, advFlagsDec_same r r' hkey]
  | uuids16 => rw [dec, dec, advListDec_same r r' "uuids16" _ _ (ofMember_arrUint16 _ _ _) hkey]
  | uuids16IsComplete => rw [dec, dec, advFlagDec_same r r' "uuids16_is_complete" _ hkey]
  | uuids32 => rw [dec, dec, advListDec_same r r' "uuids32" _ _ (ofMember_arrUint32 _ _ _) hkey]
  | uuids32IsComplete => rw [dec, dec, advFlagDec_same r r' "uuids32_is_complete" _ hkey]
  | uuids128 => rw [dec, dec, advListDec_same r r' "uuids128" _ _ (ofMember_arrUuid _) hkey, hjunk]
  | uuids128IsComplete => rw [dec, dec, advFlagDec_same r r' "uuids128_is_complete" _ hkey]
  | name => rw [dec, dec, advTextDec_same r r' "name" _ hkey]
  | nameIsComplete => rw [dec, dec, advFlagDec_same r r' "name_is_complete" _ hkey]
  | txPwrLvl => rw [dec, dec, advIntDec_same r r' "tx_pwr_lvl" _ _ _ hkey]
  | slaveItvl => rw [dec, dec, slaveItvlDec_same r r' hkey (hmax rfl)]
  | svcDataUuid16 => rw [dec, dec, advBytesDec_same r r' "svc_data_uuid16" _ hkey]
  | publicTgtAddrs =>
      rw [dec, dec, advListDec_same r r' "public_tgt_addrs" _ _ (ofMember_arrAddr _) hkey]
  | appearance => rw [dec, dec, advIntDec_same r r' "appearance" _ _ _ hkey]
  | advItvl => rw [dec, dec, advIntDec_same r r' "adv_itvl" _ _ _ hkey]
  | svcDataUuid32 => rw [dec, dec, advBytesDec_same r r' "svc_data_uuid32" _ hkey]
  | svcDataUuid128 => rw [dec, dec, advBytesDec_same r r' "svc_data_uuid128" _ hkey]
  | uri => rw [dec, dec, advTextDec_same r r' "uri" _ hkey]
  | mfgData => rw [dec, dec, advBytesDec_same r r' "mfg_data" _ hkey]

-- An absent option leaves its members at zero, and the members of an option that is
-- there do not depend on which others are absent.
structure OmitsUnset (r : Req) (req : AdvFieldsReq) : Prop where
  unset : ∀ o : AdvOption, o.Absent r.parent → o.part req = AdvFieldsReq.zero
  independent : ∀ r' req', (advFieldsDec r').result = .ok req' → r'.junk = r.junk →
    ∀ o : AdvOption, ¬o.Absent r.parent → o.Same r.parent r'.parent → o.part req' = o.part req

-- Of an absent flag the bit is set.
theorem AdvOption.dec_isComplete (r : Req) (o : AdvOption) (h : o.Absent r.parent)
    (ho : o.isComplete = true) : o.dec r ≠ .ok AdvFieldsReq.zero := by
  cases o with
  | uuids16IsComplete =>
      rw [dec, advFlagDec_absent r "uuids16_is_complete" _ h]
      intro heq
      cases congrArg AdvFieldsReq.uuids16IsComplete (Except.ok.inj heq)
  | uuids32IsComplete =>
      rw [dec, advFlagDec_absent r "uuids32_is_complete" _ h]
      intro heq
      cases congrArg AdvFieldsReq.uuids32IsComplete (Except.ok.inj heq)
  | uuids128IsComplete =>
      rw [dec, advFlagDec_absent r "uuids128_is_complete" _ h]
      intro heq
      cases congrArg AdvFieldsReq.uuids128IsComplete (Except.ok.inj heq)
  | nameIsComplete =>
      rw [dec, advFlagDec_absent r "name_is_complete" _ h]
      intro heq
      cases congrArg AdvFieldsReq.nameIsComplete (Except.ok.inj heq)
  | _ => cases ho

theorem omits_unset_iff (r : Req) (req : AdvFieldsReq) (h : (advFieldsDec r).result = .ok req) :
    OmitsUnset r req ↔ ∀ o : AdvOption, o.isComplete = true → ¬o.Absent r.parent := by
  have hdecoded := advDecoded r req h
  constructor
  · intro hunset o ho habsent
    have hzero := hdecoded.part o
    rw [hunset.unset o habsent] at hzero
    exact o.dec_isComplete r habsent ho hzero
  · intro hpresent
    refine ⟨?_, ?_⟩
    · intro o habsent
      cases ho : o.isComplete with
      | false =>
          have hzero := o.dec_absent r habsent ho
          rw [hdecoded.part o] at hzero
          exact Except.ok.inj hzero
      | true => exact absurd habsent (hpresent o ho)
    · intro r' req' h' hjunk o _ hsame
      have hpart := o.dec_same r r' hsame hjunk
      rw [hdecoded.part o, (advDecoded r' req' h').part o] at hpart
      exact (Except.ok.inj hpart).symm

def flaggedParent : Json :=
  .object [(ascii "uuids16_is_complete", .false), (ascii "uuids32_is_complete", .false),
    (ascii "uuids128_is_complete", .true), (ascii "name_is_complete", .true),
    (ascii "tx_pwr_lvl", .number (-7))]

def flaggedFields : AdvFieldsReq :=
  { AdvFieldsReq.zero with
    uuids128IsComplete := true
    nameIsComplete := true
    txPwrLvl := -7
    txPwrLvlIsPresent := true }

theorem flagged_omits_unset : OmitsUnset ⟨flaggedParent, 7, zeroJunk⟩ flaggedFields := by
  refine (omits_unset_iff ⟨flaggedParent, 7, zeroJunk⟩ flaggedFields rfl).mpr ?_
  intro o ho
  cases o with
  | uuids16IsComplete => exact Option.some_ne_none _
  | uuids32IsComplete => exact Option.some_ne_none _
  | uuids128IsComplete => exact Option.some_ne_none _
  | nameIsComplete => exact Option.some_ne_none _
  | _ => cases ho

def uuidParent : Json :=
  .object [(ascii "uuids16", .array [.number 0x180f])]

def uuidFields : AdvFieldsReq :=
  { AdvFieldsReq.zero with
    uuids16 := [0x180f]
    uuids16IsComplete := true
    uuids32IsComplete := true
    uuids128IsComplete := true
    nameIsComplete := true }

theorem absent_flag_set :
    (advFieldsDec ⟨uuidParent, 7, zeroJunk⟩).result = .ok uuidFields ∧
      ¬OmitsUnset ⟨uuidParent, 7, zeroJunk⟩ uuidFields := by
  refine ⟨rfl, ?_⟩
  intro h
  have hzero := h.unset .uuids16IsComplete rfl
  cases congrArg AdvFieldsReq.uuids16IsComplete hzero

end Blehostd
