import Blehostd.Events.Reading
import Blehostd.Responses.Theorems

namespace Blehostd

-- The UUIDs of 16 and of 32 bits are written as numbers.
def UuidAny.told : UuidAny → UuidAny
  | .known (.u16 value) => .known (.u32 value.toUInt32)
  | uuid => uuid

namespace Gatts

def CommitDsc.told (dsc : CommitDsc) : CommitDsc :=
  { dsc with uuid := dsc.uuid.told }

def CommitChr.told (chr : CommitChr) : CommitChr :=
  { chr with
    uuid := chr.uuid.told
    dscs := chr.dscs.map CommitDsc.told }

def CommitSvc.told (svc : CommitSvc) : CommitSvc :=
  { svc with
    uuid := svc.uuid.told
    chrs := svc.chrs.map CommitChr.told }

end Gatts

def ConnFindRsp.told (r : ConnFindRsp) : ConnFindRsp :=
  { r with
    ourIdAddr := r.ourIdAddr.seen
    ourOtaAddr := r.ourOtaAddr.seen
    peerIdAddr := r.peerIdAddr.seen
    peerOtaAddr := r.peerOtaAddr.seen }

-- What the client learns of a response behind its header.
inductive Told where
  | err (status : Int) (msg : Text)
  | sync (synced : Bool)
  | status (status : Int)
  | genRandAddr (status : Int) (addr : Option Addr)
  | connFind (status : Int) (rsp : ConnFindRsp)
  | reset
  | advFields (status : Int) (data : Option (List UInt8))
  | commitSvcs (status : Int) (svcs : List Gatts.CommitSvc)
  | findChr (status : Int) (handles : UInt16 × UInt16)

def Rsp.told (rsp : Rsp) : Told :=
  match rsp.hdr.type with
  | .err => .err rsp.status (ascii (errMsg rsp.body))
  | .sync => .sync (rsp.status ≠ 0)
  | .genRandAddr =>
      .genRandAddr rsp.status (if rsp.status = 0 then some (rndAddrOf rsp.body) else none)
  | .connFind => .connFind rsp.status (connFindOf rsp.body).told
  | .reset => .reset
  | .advFields =>
      .advFields rsp.status (if rsp.status = 0 then some (advDataOf rsp.body) else none)
  | .commitSvcs => .commitSvcs rsp.status ((commitSvcsOf rsp.body).map Gatts.CommitSvc.told)
  | .findChr => .findChr rsp.status (handlesOf rsp.body)
  | _ => .status rsp.status

-- A writer that writes two values alike where the client learns the same of both.
structure Writes {α β γ : Type} (f : α → Except Fault β) (told : α → γ) : Prop where
  apart : ∀ a b result, f a = .ok result → f b = .ok result → told a = told b
  alike : ∀ a b, told a = told b → f a = f b

theorem writes_mapM {α β γ : Type} {f : α → Except Fault β} {told : α → γ} (hf : Writes f told) :
    Writes (fun items : List α => items.mapM f) fun items => items.map told := by
  refine ⟨?_, ?_⟩
  · intro items
    induction items with
    | nil =>
        intro others results h h'
        cases h
        cases others with
        | nil => rfl
        | cons other others =>
            rw [List.mapM_cons] at h'
            obtain ⟨first, -, h'⟩ := (bind_ok _ _ _).mp h'
            obtain ⟨rest, -, h'⟩ := (bind_ok _ _ _).mp h'
            cases h'
    | cons item items ih =>
        intro others results h h'
        rw [List.mapM_cons] at h
        obtain ⟨first, hfirst, h⟩ := (bind_ok _ _ _).mp h
        obtain ⟨rest, hrest, h⟩ := (bind_ok _ _ _).mp h
        cases h
        cases others with
        | nil => cases h'
        | cons other others =>
            rw [List.mapM_cons] at h'
            obtain ⟨first', hfirst', h'⟩ := (bind_ok _ _ _).mp h'
            obtain ⟨rest', hrest', h'⟩ := (bind_ok _ _ _).mp h'
            cases h'
            rw [List.map_cons, List.map_cons, hf.apart item other _ hfirst hfirst',
              ih others _ hrest hrest']
  · intro items
    induction items with
    | nil =>
        intro others h
        rw [List.map_nil] at h
        rw [List.map_eq_nil_iff.mp h.symm]
    | cons item items ih =>
        intro others h
        cases others with
        | nil => cases h
        | cons other others =>
            obtain ⟨hfirst, hrest⟩ := List.cons.inj h
            have hlater : items.mapM f = others.mapM f := ih others hrest
            simp only [List.mapM_cons, hf.alike item other hfirst, hlater]

-- Writing what the client learns.
theorem writes_of_told {α β : Type} {f : α → Except Fault β} {told : α → α}
    (hkept : ∀ a, f (told a) = f a)
    (hapart : ∀ a b result, f a = .ok result → f b = .ok result → told a = told b) :
    Writes f told := by
  refine ⟨hapart, ?_⟩
  intro a b h
  rw [← hkept a, h, hkept b]

theorem told_cases (uuid : UuidAny) :
    (∃ value, uuid.told = .known (.u32 value)) ∨ (∃ value, uuid.told = .known (.u128 value)) ∨
      ∃ type, uuid.told = .other type := by
  cases uuid with
  | other type => exact Or.inr (Or.inr ⟨type, rfl⟩)
  | known uuid =>
      cases uuid with
      | u16 value => exact Or.inl ⟨_, rfl⟩
      | u32 value => exact Or.inl ⟨_, rfl⟩
      | u128 value => exact Or.inr (Or.inl ⟨_, rfl⟩)

section Listings

variable (uuidToStr : Uuid → Text) (huuid : ∀ a b, uuidToStr a = uuidToStr b → a = b)

theorem createUuid_told (uuid : UuidAny) :
    createUuid uuidToStr uuid.told = createUuid uuidToStr uuid := by
  cases uuid with
  | other type => rfl
  | known uuid =>
      cases uuid with
      | u16 value => simp only [UuidAny.told, createUuid, UInt16.toNat_toUInt32]
      | _ => rfl

include huuid

theorem createUuid_writes : Writes (createUuid uuidToStr) UuidAny.told := by
  apply writes_of_told (createUuid_told uuidToStr)
  intro a b result ha hb
  rw [← createUuid_told] at ha hb
  rcases told_cases a with ⟨value, ha'⟩ | ⟨value, ha'⟩ | ⟨type, ha'⟩
  · rcases told_cases b with ⟨value', hb'⟩ | ⟨value', hb'⟩ | ⟨type, hb'⟩
    · rw [ha'] at ha
      rw [hb', ← ha] at hb
      rw [ha', hb', u32_number _ _ (Except.ok.inj hb)]
    · rw [ha'] at ha
      rw [hb', ← ha] at hb
      cases hb
    · rw [hb'] at hb
      cases hb
  · rcases told_cases b with ⟨value', hb'⟩ | ⟨value', hb'⟩ | ⟨type, hb'⟩
    · rw [ha'] at ha
      rw [hb', ← ha] at hb
      cases hb
    · rw [ha'] at ha
      rw [hb', ← ha] at hb
      have huuids := huuid _ _ (Json.string.inj (Except.ok.inj hb))
      rw [ha', hb', huuids]
    · rw [hb'] at hb
      cases hb
  · rw [ha'] at ha
    cases ha

theorem createCommitDsc_writes : Writes (createCommitDsc uuidToStr) Gatts.CommitDsc.told := by
  have hwrites := createUuid_writes uuidToStr huuid
  refine ⟨?_, ?_⟩
  · intro a b result ha hb
    obtain ⟨uuid, huuidA, ha⟩ := (bind_ok _ _ _).mp ha
    obtain ⟨uuid', huuidB, hb⟩ := (bind_ok _ _ _).mp hb
    rw [← ha] at hb
    simp only [addItem, addInt, List.cons_append, List.nil_append, Except.ok.injEq,
      Json.object.injEq, List.cons.injEq, Prod.mk.injEq, true_and, and_true] at hb
    obtain ⟨rfl, hhandle⟩ := hb
    rw [Gatts.CommitDsc.told, Gatts.CommitDsc.told, hwrites.apart _ _ _ huuidA huuidB,
      u16_number _ _ hhandle.symm]
  · intro a b h
    obtain ⟨huuids, hhandle⟩ := Gatts.CommitDsc.mk.inj h
    simp only [createCommitDsc, hwrites.alike _ _ huuids, hhandle]

theorem createCommitChr_writes : Writes (createCommitChr uuidToStr) Gatts.CommitChr.told := by
  have hwrites := createUuid_writes uuidToStr huuid
  have hdscs := writes_mapM (createCommitDsc_writes uuidToStr huuid)
  refine ⟨?_, ?_⟩
  · intro a b result ha hb
    obtain ⟨uuid, huuidA, ha⟩ := (bind_ok _ _ _).mp ha
    obtain ⟨dscs, hdscsA, ha⟩ := (bind_ok _ _ _).mp ha
    obtain ⟨uuid', huuidB, hb⟩ := (bind_ok _ _ _).mp hb
    obtain ⟨dscs', hdscsB, hb⟩ := (bind_ok _ _ _).mp hb
    rw [← ha] at hb
    simp only [addItem, addInt, List.cons_append, List.nil_append, Except.ok.injEq,
      Json.object.injEq, List.cons.injEq, Prod.mk.injEq, true_and, and_true,
      Json.array.injEq] at hb
    obtain ⟨rfl, hdef, hval, rfl⟩ := hb
    rw [Gatts.CommitChr.told, Gatts.CommitChr.told, hwrites.apart _ _ _ huuidA huuidB,
      hdscs.apart _ _ _ hdscsA hdscsB, u16_number _ _ hdef.symm, u16_number _ _ hval.symm]
  · intro a b h
    obtain ⟨huuids, hdef, hval, hlist⟩ := Gatts.CommitChr.mk.inj h
    simp only [createCommitChr, hwrites.alike _ _ huuids, hdscs.alike _ _ hlist, hdef, hval]

theorem createCommitSvc_writes : Writes (createCommitSvc uuidToStr) Gatts.CommitSvc.told := by
  have hwrites := createUuid_writes uuidToStr huuid
  have hchrs := writes_mapM (createCommitChr_writes uuidToStr huuid)
  refine ⟨?_, ?_⟩
  · intro a b result ha hb
    obtain ⟨uuid, huuidA, ha⟩ := (bind_ok _ _ _).mp ha
    obtain ⟨chrs, hchrsA, ha⟩ := (bind_ok _ _ _).mp ha
    obtain ⟨uuid', huuidB, hb⟩ := (bind_ok _ _ _).mp hb
    obtain ⟨chrs', hchrsB, hb⟩ := (bind_ok _ _ _).mp hb
    rw [← ha] at hb
    simp only [addItem, addInt, List.cons_append, List.nil_append, Except.ok.injEq,
      Json.object.injEq, List.cons.injEq, Prod.mk.injEq, true_and, and_true,
      Json.array.injEq] at hb
    obtain ⟨rfl, hhandle, rfl⟩ := hb
    rw [Gatts.CommitSvc.told, Gatts.CommitSvc.told, hwrites.apart _ _ _ huuidA huuidB,
      hchrs.apart _ _ _ hchrsA hchrsB, u16_number _ _ hhandle.symm]
  · intro a b h
    obtain ⟨huuids, hhandle, hlist⟩ := Gatts.CommitSvc.mk.inj h
    simp only [createCommitSvc, hwrites.alike _ _ huuids, hchrs.alike _ _ hlist, hhandle]

end Listings

def connFindTable (r : ConnFindRsp) : List (String × Option Json) :=
  [("conn_handle", given (r.connHandle ≠ BLE_HS_CONN_HANDLE_NONE) (.number r.connHandle.toNat)),
    ("conn_itvl", some (.number r.connItvl.toNat)),
    ("conn_latency", some (.number r.connLatency.toNat)),
    ("supervision_timeout", some (.number r.supervisionTimeout.toNat)),
    ("role", some (.number r.role.toNat)),
    ("master_clock_accuracy", some (.number r.masterClockAccuracy.toNat))] ++
  addrTable "own_id_addr_type" "own_id_addr" r.ourIdAddr ++
  addrTable "own_ota_addr_type" "own_ota_addr" r.ourOtaAddr ++
  addrTable "peer_id_addr_type" "peer_id_addr" r.peerIdAddr ++
  addrTable "peer_ota_addr_type" "peer_ota_addr" r.peerOtaAddr ++
  [("encrypted", some (Json.createBool r.encrypted)),
    ("authenticated", some (Json.createBool r.authenticated)),
    ("bonded", some (Json.createBool r.bonded)),
    ("key_size", some (.number r.keySize.toNat))]

theorem connFindRspEnc_table (uuidToStr : Uuid → Text) (rsp : Rsp) :
    connFindRspEnc uuidToStr rsp =
      .ok (addInt "status" rsp.status ++ tableMembers (connFindTable (connFindOf rsp.body))) := by
  simp only [connFindRspEnc, connFindTable, tableMembers_append, tableMembers_addr,
    tableMembers_given, tableMembers_some, tableMembers_nil, addInt, addBool,
    List.append_assoc, List.cons_append, List.nil_append]

def connFindNames : List String :=
  ["conn_handle", "conn_itvl", "conn_latency", "supervision_timeout", "role",
    "master_clock_accuracy", "own_id_addr_type", "own_id_addr", "own_ota_addr_type",
    "own_ota_addr", "peer_id_addr_type", "peer_id_addr", "peer_ota_addr_type", "peer_ota_addr",
    "encrypted", "authenticated", "bonded", "key_size"]

theorem connFindTable_of_members (a b : ConnFindRsp)
    (h : tableMembers (connFindTable a) = tableMembers (connFindTable b)) :
    connFindTable a = connFindTable b := by
  have hnames (r : ConnFindRsp) : (connFindTable r).map Prod.fst = connFindNames := rfl
  have hdistinct : (connFindNames.map ascii).Nodup := by decide +kernel
  apply tableMembers_inj _ _ _ _ h
  · rw [hnames, hnames]
  · rw [← hnames a, List.map_map] at hdistinct
    exact hdistinct

theorem connFind_told (a b : ConnFindRsp) (h : connFindTable a = connFindTable b) :
    a.told = b.told := by
  have hourId := addrTable_seen _ _ a.ourIdAddr b.ourIdAddr
    (congrArg (fun table => (table.drop 6).take 2) h)
  have hourOta := addrTable_seen _ _ a.ourOtaAddr b.ourOtaAddr
    (congrArg (fun table => (table.drop 8).take 2) h)
  have hpeerId := addrTable_seen _ _ a.peerIdAddr b.peerIdAddr
    (congrArg (fun table => (table.drop 10).take 2) h)
  have hpeerOta := addrTable_seen _ _ a.peerOtaAddr b.peerOtaAddr
    (congrArg (fun table => (table.drop 12).take 2) h)
  simp only [connFindTable, addrTable, List.cons_append, List.nil_append, List.cons.injEq,
    Prod.mk.injEq, true_and, and_true, Option.some.injEq] at h
  obtain ⟨hhandle, hitvl, hlatency, htimeout, hrole, hmca, -, -, -, -, -, -, -, -, hencrypted,
    hauthenticated, hbonded, hkeySize⟩ := h
  have hconn := given_ne BLE_HS_CONN_HANDLE_NONE (fun handle => .number handle.toNat) u16_number
    a.connHandle b.connHandle hhandle
  unfold ConnFindRsp.told
  rw [hconn, u16_number _ _ hitvl, u16_number _ _ hlatency, u16_number _ _ htimeout,
    u8_number _ _ hrole, u8_number _ _ hmca, hourId, hourOta, hpeerId, hpeerOta,
    createBool_inj _ _ hencrypted, createBool_inj _ _ hauthenticated, createBool_inj _ _ hbonded,
    u8_number _ _ hkeySize]

theorem told_connFind (r : ConnFindRsp) : connFindTable r.told = connFindTable r := by
  simp only [connFindTable, ConnFindRsp.told, seen_addrTable]
  rfl

section Encoders

variable (uuidToStr : Uuid → Text)

-- A status with other members behind it.
theorem status_cons {α β : Type} {f : α → Members} {told : α → β} (status : α → Int)
    (told' : Int → β → Told)
    (hf : ∀ a b, status a = status b → (f a = f b ↔ told a = told b))
    (hinj : ∀ s s' x y, told' s x = told' s' y → s = s' ∧ x = y) :
    Writes (fun a => (.ok (addInt "status" (status a) ++ f a) : Except Fault Members))
      fun a => told' (status a) (told a) := by
  refine ⟨?_, ?_⟩
  · intro a b members ha hb
    rw [← ha] at hb
    simp only [addInt, List.cons_append, List.nil_append, Except.ok.injEq, List.cons.injEq,
      Prod.mk.injEq, Json.number.injEq, true_and] at hb
    obtain ⟨hstatus, hrest⟩ := hb
    rw [hstatus, (hf a b hstatus.symm).mp hrest.symm]
  · intro a b h
    obtain ⟨hstatus, htold⟩ := hinj _ _ _ _ h
    rw [hstatus, (hf a b hstatus).mpr htold]

theorem errRspEnc_writes :
    Writes (errRspEnc uuidToStr) fun rsp : Rsp => Told.err rsp.status (ascii (errMsg rsp.body)) := by
  refine status_cons (fun rsp : Rsp => rsp.status) Told.err ?_ fun _ _ _ _ => Told.err.inj
  intro a b _
  simp [addString, addText]

theorem syncRspEnc_writes : Writes (syncRspEnc uuidToStr) fun rsp : Rsp => Told.sync (rsp.status ≠ 0) := by
  refine ⟨?_, ?_⟩
  · intro a b members ha hb
    rw [← ha] at hb
    simp only [syncRspEnc, addBool, Except.ok.injEq, List.cons.injEq, Prod.mk.injEq, true_and,
      and_true] at hb
    rw [createBool_inj _ _ hb]
  · intro a b h
    rw [syncRspEnc, syncRspEnc, Told.sync.inj h]

theorem statusRspEnc_writes : Writes (statusRspEnc uuidToStr) fun rsp : Rsp => Told.status rsp.status := by
  refine ⟨?_, ?_⟩
  · intro a b members ha hb
    rw [← ha] at hb
    simp only [statusRspEnc, addInt, Except.ok.injEq, List.cons.injEq, Prod.mk.injEq,
      Json.number.injEq, true_and, and_true] at hb
    rw [hb]
  · intro a b h
    rw [statusRspEnc, statusRspEnc, Told.status.inj h]

-- A member that is there when the status is 0.
theorem optional_iff {α : Type} (write : α → Members) (hwrite : ∀ x y, write x = write y ↔ x = y)
    (s s' : Int) (hs : s = s') (x y : α) :
    (if s = 0 then write x else []) = (if s' = 0 then write y else []) ↔
      (if s = 0 then some x else none) = if s' = 0 then some y else none := by
  subst hs
  split_ifs
  · rw [hwrite, Option.some.injEq]
  · exact iff_of_true rfl rfl

theorem genRandAddrRspEnc_writes : Writes (genRandAddrRspEnc uuidToStr) fun rsp : Rsp =>
    Told.genRandAddr rsp.status (if rsp.status = 0 then some (rndAddrOf rsp.body) else none) := by
  refine status_cons (fun rsp : Rsp => rsp.status) Told.genRandAddr ?_
    fun _ _ _ _ => Told.genRandAddr.inj
  intro a b hstatus
  apply optional_iff (addAddr "addr") _ _ _ hstatus
  · intro x y
    simp only [addAddr, addText, List.cons.injEq, Prod.mk.injEq, Json.string.injEq, true_and,
      and_true]
    exact ⟨addrStr_inj x y, fun h => by rw [h]⟩

theorem advFieldsRspEnc_writes : Writes (advFieldsRspEnc uuidToStr) fun rsp : Rsp =>
    Told.advFields rsp.status (if rsp.status = 0 then some (advDataOf rsp.body) else none) := by
  refine status_cons (fun rsp : Rsp => rsp.status) Told.advFields ?_ fun _ _ _ _ => Told.advFields.inj
  intro a b hstatus
  apply optional_iff (addBytes "data") _ _ _ hstatus
  · intro x y
    simp only [addBytes, addItem, List.cons.injEq, Prod.mk.injEq, true_and, and_true]
    exact ⟨createByteString_inj x y, fun h => by rw [h]⟩

theorem connFindRspEnc_writes : Writes (connFindRspEnc uuidToStr) fun rsp : Rsp =>
    Told.connFind rsp.status (connFindOf rsp.body).told := by
  have htable : connFindRspEnc uuidToStr = fun rsp => .ok (addInt "status" rsp.status ++
      tableMembers (connFindTable (connFindOf rsp.body))) :=
    funext (connFindRspEnc_table uuidToStr)
  rw [htable]
  refine status_cons (fun rsp : Rsp => rsp.status) Told.connFind ?_ fun _ _ _ _ => Told.connFind.inj
  intro a b _
  refine ⟨fun h => connFind_told _ _ (connFindTable_of_members _ _ h), ?_⟩
  intro h
  rw [← told_connFind, h, told_connFind]

theorem findChrRspEnc_writes :
    Writes (findChrRspEnc uuidToStr) fun rsp : Rsp => Told.findChr rsp.status (handlesOf rsp.body) := by
  refine ⟨?_, ?_⟩
  · intro a b members ha hb
    rw [← ha] at hb
    simp only [findChrRspEnc, addInt, List.cons_append, List.nil_append, Except.ok.injEq,
      List.cons.injEq, Prod.mk.injEq, true_and, and_true] at hb
    obtain ⟨hstatus, hdef, hval⟩ := hb
    have hhandles : handlesOf a.body = handlesOf b.body :=
      Prod.ext (u16_number _ _ hdef.symm) (u16_number _ _ hval.symm)
    rw [Json.number.inj hstatus, hhandles]
  · intro a b h
    obtain ⟨hstatus, hhandles⟩ := Told.findChr.inj h
    rw [findChrRspEnc, findChrRspEnc, hstatus, hhandles]

theorem commitSvcsRspEnc_writes (huuid : ∀ a b, uuidToStr a = uuidToStr b → a = b) :
    Writes (commitSvcsRspEnc uuidToStr) fun rsp : Rsp =>
      Told.commitSvcs rsp.status ((commitSvcsOf rsp.body).map Gatts.CommitSvc.told) := by
  have hlist := writes_mapM (createCommitSvc_writes uuidToStr huuid)
  refine ⟨?_, ?_⟩
  · intro a b members ha hb
    obtain ⟨svcs, hsvcs, ha⟩ := (bind_ok _ _ _).mp ha
    obtain ⟨svcs', hsvcs', hb⟩ := (bind_ok _ _ _).mp hb
    rw [← ha] at hb
    simp only [addInt, addItem, List.cons_append, List.nil_append, Except.ok.injEq,
      List.cons.injEq, Prod.mk.injEq, Json.number.injEq, Json.array.injEq, true_and,
      and_true] at hb
    obtain ⟨hstatus, rfl⟩ := hb
    rw [hstatus, hlist.apart _ _ _ hsvcs hsvcs']
  · intro a b h
    obtain ⟨hstatus, hsvcs⟩ := Told.commitSvcs.inj h
    have hsame : (commitSvcsOf a.body).mapM (createCommitSvc uuidToStr) =
        (commitSvcsOf b.body).mapM (createCommitSvc uuidToStr) := hlist.alike _ _ hsvcs
    simp only [commitSvcsRspEnc, hsame, hstatus]

theorem resetRspEnc_writes : Writes (resetRspEnc uuidToStr) fun _ => Told.reset :=
  ⟨fun _ _ _ _ _ => rfl, fun _ _ _ => rfl⟩

-- One case for each encoder.
theorem rspDispatchFind_writes (huuid : ∀ a b, uuidToStr a = uuidToStr b → a = b) (type : MsgType)
    (enc : SubrspEnc) (henc : rspDispatchFind type = .ok enc) :
    ∃ told, Writes (enc uuidToStr) told ∧ ∀ rsp : Rsp, rsp.hdr.type = type → rsp.told = told rsp := by
  cases type
  case err =>
    cases henc
    exact ⟨_, errRspEnc_writes uuidToStr, fun rsp h => by rw [Rsp.told, h]⟩
  case sync =>
    cases henc
    exact ⟨_, syncRspEnc_writes uuidToStr, fun rsp h => by rw [Rsp.told, h]⟩
  case genRandAddr =>
    cases henc
    exact ⟨_, genRandAddrRspEnc_writes uuidToStr, fun rsp h => by rw [Rsp.told, h]⟩
  case connFind =>
    cases henc
    exact ⟨_, connFindRspEnc_writes uuidToStr, fun rsp h => by rw [Rsp.told, h]⟩
  case reset =>
    cases henc
    exact ⟨_, resetRspEnc_writes uuidToStr, fun rsp h => by rw [Rsp.told, h]⟩
  case advFields =>
    cases henc
    exact ⟨_, advFieldsRspEnc_writes uuidToStr, fun rsp h => by rw [Rsp.told, h]⟩
  case commitSvcs =>
    cases henc
    exact ⟨_, commitSvcsRspEnc_writes uuidToStr huuid, fun rsp h => by rw [Rsp.told, h]⟩
  case findChr =>
    cases henc
    exact ⟨_, findChrRspEnc_writes uuidToStr, fun rsp h => by rw [Rsp.told, h]⟩
  -- The other responses have a status only, and the events have no encoder.
  all_goals first
    | cases henc
      exact ⟨_, statusRspEnc_writes uuidToStr, fun rsp h => by rw [Rsp.told, h]⟩
    | cases henc

-- Two responses are written in the same way when the client learns the same of both.
theorem rspEnc_told_iff (huuid : ∀ a b, uuidToStr a = uuidToStr b → a = b) (a b : Rsp)
    (root : Json) (ha : rspEnc uuidToStr a = .ok root) :
    rspEnc uuidToStr b = .ok root ↔ a.hdr = b.hdr ∧ a.told = b.told := by
  obtain ⟨enc, members, henc, hmembers, rfl⟩ := (rspEnc_ok uuidToStr a root).mp ha
  obtain ⟨told, hwrites, htold⟩ := rspDispatchFind_writes uuidToStr huuid _ enc henc
  constructor
  · intro hb
    obtain ⟨enc', members', henc', hmembers', hroot⟩ := (rspEnc_ok uuidToStr b _).mp hb
    obtain ⟨hhdr, rfl⟩ := List.append_inj (Json.object.inj hroot) rfl
    have hsame := msgHdrEnc_inj a.hdr b.hdr hhdr
    rw [← hsame, henc] at henc'
    obtain rfl := Except.ok.inj henc'
    refine ⟨hsame, ?_⟩
    rw [htold a rfl, htold b (by rw [hsame])]
    exact hwrites.apart a b members hmembers hmembers'
  · rintro ⟨hhdr, hsame⟩
    rw [htold a rfl, htold b (by rw [hhdr])] at hsame
    refine (rspEnc_ok uuidToStr b _).mpr ⟨enc, members, ?_, ?_, ?_⟩
    · rw [← hhdr]
      exact henc
    · rw [← hwrites.alike a b hsame]
      exact hmembers
    · rw [hhdr]

end Encoders

end Blehostd
