import Blehostd.Daemon.Truthful

namespace Blehostd

-- What a failed response may hold. The list of services is an empty one.
def BareMember (member : Text × Json) : Prop :=
  member.1 ∈ ["op", "type", "seq", "status", "msg"].map ascii ∨
    member = (ascii "services", .array [])

-- With an error in its status the object holds no data.
def FailureBare (obj : Json) : Prop :=
  ∀ n, obj.getObjectItem "status" = some (.number n) → n ≠ 0 →
    ∃ members, obj = .object members ∧ ∀ member ∈ members, BareMember member

-- The host finds no such connection, or a find_chr request fails in any way.
def Exposes (root : Option Json) (host : Host) : Prop :=
  ∃ json seq, root = some json ∧
    ((msgHdrDec json = .ok ⟨.req, .connFind, seq⟩ ∧
        ∃ handle, jsonInt 0 0xffff json "conn_handle" = .ok handle ∧
          host.result (.gapConnFind (UInt16.ofInt handle)) ≠ 0) ∨
      (msgHdrDec json = .ok ⟨.req, .findChr, seq⟩ ∧
        ∀ svcUuid chrUuid, jsonUuid json "svc_uuid" = .ok svcUuid →
          jsonUuid json "chr_uuid" = .ok chrUuid →
          host.result (.gattsFindChr svcUuid chrUuid) ≠ 0))

theorem msgHdrEnc_bare (hdr : MsgHdr) : ∀ member ∈ msgHdrEnc hdr, BareMember member := by
  intro member hmem
  simp only [msgHdrEnc, addName, addString, addText, addInt, List.cons_append, List.nil_append,
    List.mem_cons, List.not_mem_nil, or_false] at hmem
  rcases hmem with rfl | rfl | rfl <;> exact Or.inl (by simp)

theorem addInt_status_bare (status : Int) :
    ∀ member ∈ addInt "status" status, BareMember member := by
  intro member hmem
  rw [List.mem_singleton.mp hmem]
  exact Or.inl (by simp)

theorem bare_of_members (uuidToStr : Uuid → Text) (rsp : Rsp) (enc : SubrspEnc) (members : Members)
    (obj : Json) (henc : rspDispatchFind rsp.hdr.type = .ok enc)
    (hmembers : enc uuidToStr rsp = .ok members) (hobj : rspEnc uuidToStr rsp = .ok obj)
    (hbare : ∀ member ∈ members, BareMember member) : FailureBare obj := by
  obtain ⟨other, others, hother, hothers, rfl⟩ := (rspEnc_ok uuidToStr rsp obj).mp hobj
  obtain rfl := Except.ok.inj (henc.symm.trans hother)
  obtain rfl := Except.ok.inj (hmembers.symm.trans hothers)
  intro _ _ _
  refine ⟨_, rfl, ?_⟩
  intro member hmem
  rcases List.mem_append.mp hmem with hhdr | hrest
  · exact msgHdrEnc_bare rsp.hdr member hhdr
  · exact hbare member hrest

-- A status of 0 promises nothing.
theorem bare_of_success (uuidToStr : Uuid → Text) (rsp : Rsp) (obj : Json)
    (hobj : rspEnc uuidToStr rsp = .ok obj) (hsync : rsp.hdr.type ≠ .sync)
    (hreset : rsp.hdr.type ≠ .reset) (hzero : rsp.status = 0) : FailureBare obj := by
  intro n hn hne
  rw [rspEnc_status uuidToStr rsp obj hobj hsync hreset] at hn
  obtain rfl := Json.number.inj (Option.some.inj hn)
  exact absurd hzero hne

theorem getObjectItem_header (hdr : MsgHdr) (rest : Members) :
    (Json.object (msgHdrEnc hdr ++ rest)).getObjectItem "status" =
      (Json.object rest).getObjectItem "status" := by
  have hop : Json.sameKey (ascii "op") "status" = false := by decide
  have htype : Json.sameKey (ascii "type") "status" = false := by decide
  have hseq : Json.sameKey (ascii "seq") "status" = false := by decide
  simp only [msgHdrEnc, addName, addString, addText, addInt, List.cons_append, List.nil_append,
    getObjectItem_cons, hop, htype, hseq, if_false, Bool.false_eq_true]

-- Every other encoder looks at the status before it reads the union, or reads
-- nothing behind it.
theorem rspDispatchFind_bare (type : MsgType) (enc : SubrspEnc)
    (henc : rspDispatchFind type = .ok enc) (hsync : type ≠ .sync) (hconnFind : type ≠ .connFind)
    (hfindChr : type ≠ .findChr) (uuidToStr : Uuid → Text) (rsp : Rsp) (members : Members)
    (h : enc uuidToStr rsp = .ok members) (hstatus : rsp.status ≠ 0)
    (hsvcs : commitSvcsOf rsp.body = []) : ∀ member ∈ members, BareMember member := by
  have hplain : statusRspEnc uuidToStr rsp = .ok members →
      ∀ member ∈ members, BareMember member := by
    intro hmembers
    rw [← Except.ok.inj hmembers]
    exact addInt_status_bare rsp.status
  cases type <;> cases henc
  case sync => exact absurd rfl hsync
  case connFind => exact absurd rfl hconnFind
  case findChr => exact absurd rfl hfindChr
  case err =>
    rw [← Except.ok.inj h]
    intro member hmem
    rcases List.mem_append.mp hmem with hfirst | hmsg
    · exact addInt_status_bare rsp.status member hfirst
    · rw [List.mem_singleton.mp hmsg]
      exact Or.inl (by simp)
  case reset =>
    rw [← Except.ok.inj h]
    exact fun _ hmem => absurd hmem List.not_mem_nil
  case commitSvcs =>
    simp only [commitSvcsRspEnc, hsvcs] at h
    rw [← Except.ok.inj h]
    intro member hmem
    rcases List.mem_append.mp hmem with hfirst | hlist
    · exact addInt_status_bare rsp.status member hfirst
    · exact Or.inr (List.mem_singleton.mp hlist)
  case genRandAddr =>
    simp only [genRandAddrRspEnc, if_neg hstatus, List.append_nil] at h
    exact hplain h
  case advFields =>
    simp only [advFieldsRspEnc, if_neg hstatus, List.append_nil] at h
    exact hplain h
  all_goals exact hplain h

theorem encoded_bare (uuidToStr : Uuid → Text) (rsp : Rsp) (obj : Json)
    (hobj : rspEnc uuidToStr rsp = .ok obj) (hconnFind : rsp.hdr.type ≠ .connFind)
    (hfindChr : rsp.hdr.type ≠ .findChr)
    (hsvcs : rsp.status ≠ 0 → commitSvcsOf rsp.body = []) : FailureBare obj := by
  obtain ⟨enc, members, henc, hmembers, rfl⟩ := (rspEnc_ok uuidToStr rsp obj).mp hobj
  by_cases hsync : rsp.hdr.type = .sync
  · -- The only member is the flag.
    rw [hsync] at henc
    cases henc
    rw [← Except.ok.inj hmembers]
    intro n hn _
    rw [getObjectItem_header] at hn
    cases hn
  · by_cases hstatus : rsp.status = 0
    · by_cases hreset : rsp.hdr.type = .reset
      · rw [hreset] at henc
        cases henc
        rw [← Except.ok.inj hmembers]
        intro n hn _
        rw [getObjectItem_header] at hn
        cases hn
      · exact bare_of_success uuidToStr rsp _ hobj hsync hreset hstatus
    · exact bare_of_members uuidToStr rsp enc members _ henc hmembers hobj
        (rspDispatchFind_bare _ enc henc hsync hconnFind hfindChr uuidToStr rsp members hmembers
          hstatus (hsvcs hstatus))

-- A commit with an error in its status lists nothing.
theorem commitSvcs_failed (env : Gatts.CommitEnv) (s s' : Gatts.State) (commit : Gatts.CommitRsp)
    (h : Gatts.commitSvcs env s = .ok (commit, s')) (hstatus : commit.status ≠ 0) :
    commit.svcs = [] := by
  unfold Gatts.commitSvcs at h
  dsimp only at h
  split_ifs at h
  · obtain ⟨rfl, _⟩ := Prod.mk.inj (Except.ok.inj h)
    rfl
  · obtain ⟨rfl, _⟩ := Prod.mk.inj (Except.ok.inj h)
    rfl
  · obtain ⟨rfl, _⟩ := Prod.mk.inj (Except.ok.inj h)
    rfl
  · obtain ⟨rfl, _⟩ := Prod.mk.inj (Except.ok.inj h)
    rfl
  · simp only [Gatts.commitListing, bind_ok] at h
    obtain ⟨svcs, _, h⟩ := h
    cases svcs with
    | none =>
        simp only [bind_ok] at h
        obtain ⟨_, _, h⟩ := h
        obtain ⟨rfl, _⟩ := Prod.mk.inj (Except.ok.inj h)
        rfl
    | some svcs =>
        obtain ⟨rfl, _⟩ := Prod.mk.inj (Except.ok.inj h)
        exact absurd rfl hstatus

theorem failed_svcs (root : Option Json) (junk : Junk) (host : Host) (world : World)
    (outcome : Outcome) (h : reqOutcome root junk host world = .ok outcome)
    (hstatus : outcome.answer.rsp.status ≠ 0) : commitSvcsOf outcome.answer.rsp.body = [] := by
  by_cases hcommit : ∃ seq, IsCommit root seq
  · obtain ⟨seq, hseq⟩ := hcommit
    rw [reqOutcome_commit root seq junk host world hseq] at h
    cases hanswer : gattsCommitSvcs host (Rsp.cleared .commitSvcs seq) world with
    | error fault =>
        rw [hanswer] at h
        cases h
    | ok answer =>
        rw [hanswer] at h
        obtain rfl := Except.ok.inj h
        obtain ⟨⟨commit, s'⟩, hcommitted, hrsp⟩ := (bind_ok _ _ _).mp hanswer
        obtain rfl := Except.ok.inj hrsp
        exact commitSvcs_failed _ _ _ commit hcommitted hstatus
  · obtain ⟨other, hother, hplain⟩ := reqOutcome_plain root junk host world (not_exists.mp hcommit)
    obtain rfl := Except.ok.inj (h.symm.trans hother)
    exact hplain.modest.svcs

theorem connFind_refused (r : Req) (host : Host) (world : World) (outcome : Outcome) (e : ErrCode)
    (hhandle : jsonInt 0 0xffff r.parent "conn_handle" = .error e)
    (h : runReq connFindReqRun r host (Rsp.cleared .connFind r.seq) world = .ok outcome) :
    outcome.answer.rsp.hdr.type = .err := by
  have hexit : (connFindReqRun r).result = .error (.build "invalid conn_handle" e) := by
    unfold connFindReqRun needHandle
    rw [need_error _ _ _ _ e hhandle]
    rfl
  rw [runReq_exit _ r host _ world _ hexit] at h
  obtain rfl := Except.ok.inj h
  rfl

theorem connFind_answer (r : Req) (host : Host) (world : World) (outcome : Outcome) (handle : Int)
    (hhandle : jsonInt 0 0xffff r.parent "conn_handle" = .ok handle)
    (h : runReq connFindReqRun r host (Rsp.cleared .connFind r.seq) world = .ok outcome) :
    outcome.answer.rsp.hdr.type = .connFind ∧
      outcome.answer.rsp.status = (host.result (.gapConnFind (UInt16.ofInt handle))).toInt := by
  have haction : (connFindReqRun r).result = .ok (gapConnFind (UInt16.ofInt handle)) := by
    unfold connFindReqRun needHandle
    rw [need_ok _ _ _ _ handle hhandle]
    rfl
  obtain ⟨answer, hanswer, rfl⟩ := (runReq_action _ r host _ world _ haction _).mp h
  unfold gapConnFind at hanswer
  dsimp only at hanswer
  split_ifs at hanswer
  · rw [← Except.ok.inj hanswer]
    exact ⟨rfl, rfl⟩
  · rw [← Except.ok.inj hanswer]
    exact ⟨rfl, rfl⟩

-- A find_chr request keeps its type, whatever fails.
theorem findChr_answer (r : Req) (host : Host) (world : World) (outcome : Outcome)
    (h : runReq findChrReqRun r host (Rsp.cleared .findChr r.seq) world = .ok outcome) :
    outcome.answer.rsp.hdr.type = .findChr ∧
      (outcome.answer.rsp.status = 0 ↔ ∃ svcUuid chrUuid,
        jsonUuid r.parent "svc_uuid" = .ok svcUuid ∧ jsonUuid r.parent "chr_uuid" = .ok chrUuid ∧
        host.result (.gattsFindChr svcUuid chrUuid) = 0) := by
  have hleft : ∀ e, (findChrReqRun r).result = .error (.own e) →
      outcome.answer.rsp.hdr.type = .findChr ∧ outcome.answer.rsp.status ≠ 0 := by
    intro e hexit
    rw [runReq_exit _ r host _ world _ hexit] at h
    obtain rfl := Except.ok.inj h
    exact ⟨rfl, e.code_ne_zero⟩
  unfold findChrReqRun at hleft
  cases hsvc : jsonUuid r.parent "svc_uuid" with
  | error e =>
      rw [need_error _ _ _ _ e hsvc] at hleft
      obtain ⟨htype, hstatus⟩ := hleft e rfl
      simp [htype, hstatus]
  | ok svcUuid =>
      rw [need_ok _ _ _ _ svcUuid hsvc] at hleft
      cases hchr : jsonUuid r.parent "chr_uuid" with
      | error e =>
          simp only [need_error _ _ _ _ e hchr] at hleft
          obtain ⟨htype, hstatus⟩ := hleft e rfl
          simp [htype, hstatus]
      | ok chrUuid =>
          have haction : (findChrReqRun r).result = .ok (gattsFindChr svcUuid chrUuid) := by
            unfold findChrReqRun
            rw [need_ok _ _ _ _ svcUuid hsvc, need_ok _ _ _ _ chrUuid hchr]
            rfl
          obtain ⟨answer, hanswer, rfl⟩ := (runReq_action _ r host _ world _ haction _).mp h
          rw [← Except.ok.inj hanswer]
          refine ⟨rfl, ?_⟩
          have hzero : (host.result (.gattsFindChr svcUuid chrUuid)).toInt = 0 ↔
              host.result (.gattsFindChr svcUuid chrUuid) = 0 := by
            rw [← Int32.toInt_inj]
            rfl
          simp [hzero]

theorem not_bare_of_member (uuidToStr : Uuid → Text) (rsp : Rsp) (enc : SubrspEnc)
    (members : Members) (obj : Json) (henc : rspDispatchFind rsp.hdr.type = .ok enc)
    (hmembers : enc uuidToStr rsp = .ok members) (hobj : rspEnc uuidToStr rsp = .ok obj)
    (hsync : rsp.hdr.type ≠ .sync) (hreset : rsp.hdr.type ≠ .reset) (hstatus : rsp.status ≠ 0)
    (member : Text × Json) (hmem : member ∈ members) (hdata : ¬BareMember member) :
    ¬FailureBare obj := by
  intro hbare
  have hn := rspEnc_status uuidToStr rsp obj hobj hsync hreset
  obtain ⟨other, others, hother, hothers, rfl⟩ := (rspEnc_ok uuidToStr rsp obj).mp hobj
  obtain rfl := Except.ok.inj (henc.symm.trans hother)
  obtain rfl := Except.ok.inj (hmembers.symm.trans hothers)
  obtain ⟨all, hall, hevery⟩ := hbare _ hn hstatus
  obtain rfl := Json.object.inj hall
  exact hdata (hevery member (List.mem_append_right _ hmem))

theorem not_bareMember (key : String) (value : Json)
    (hkey : ascii key ∉ ["op", "type", "seq", "status", "msg", "services"].map ascii) :
    ¬BareMember (ascii key, value) := by
  rintro (hknown | hservices)
  · exact hkey (List.map_subset ascii (by simp) hknown)
  · rw [(Prod.mk.inj hservices).1] at hkey
    exact hkey (by simp)

-- The connection parameters and the handles are added whatever the status is.
theorem exposed_not_bare (uuidToStr : Uuid → Text) (rsp : Rsp) (obj : Json)
    (htype : rsp.hdr.type = .connFind ∨ rsp.hdr.type = .findChr) (hstatus : rsp.status ≠ 0)
    (hobj : rspEnc uuidToStr rsp = .ok obj) : ¬FailureBare obj := by
  rcases htype with htype | htype
  · refine not_bare_of_member uuidToStr rsp connFindRspEnc _ obj (by rw [htype]; rfl) rfl hobj
      (by simp [htype]) (by simp [htype]) hstatus
      (ascii "conn_itvl", .number (connFindOf rsp.body).connItvl.toNat) ?_
      (not_bareMember _ _ (by decide))
    simp [addInt]
  · refine not_bare_of_member uuidToStr rsp findChrRspEnc _ obj (by rw [htype]; rfl) rfl hobj
      (by simp [htype]) (by simp [htype]) hstatus
      (ascii "def_handle", .number (handlesOf rsp.body).1.toNat) ?_
      (not_bareMember _ _ (by decide))
    exact List.mem_append_left _ (List.mem_append_right _ (List.mem_singleton_self _))

theorem toInt_ne_zero (rc : Int32) (h : rc ≠ 0) : rc.toInt ≠ 0 := by
  intro hzero
  exact h (Int32.toInt_inj.mp hzero)

-- The response of a request that goes to its handler.
theorem reqOutcome_handler (json : Json) (type : MsgType) (seq : UInt32) (run : ReqRun)
    (hhdr : msgHdrDec json = .ok ⟨.req, type, seq⟩) (hrun : reqDispatchFind type = some run)
    (junk : Junk) (host : Host) (world : World) :
    reqOutcome (some json) junk host world =
      runReq run ⟨json, seq, junk⟩ host (Rsp.cleared type seq) world := by
  simp only [reqOutcome, hhdr, hrun, ne_eq, not_true_eq_false, if_false]

theorem exposes_inside (root : Option Json) (host : Host) (h : Exposes root host) :
    ¬Overruns root := by
  obtain ⟨json, seq, rfl, ⟨hhdr, -⟩ | ⟨hhdr, -⟩⟩ := h
  · exact not_overruns hhdr (by decide)
  · exact not_overruns hhdr (by decide)

theorem exposes_fails (root : Option Json) (junk : Junk) (host : Host) (world : World)
    (h : Exposes root host) : ∃ outcome, reqOutcome root junk host world = .ok outcome ∧
      (outcome.answer.rsp.hdr.type = .connFind ∨ outcome.answer.rsp.hdr.type = .findChr) ∧
      outcome.answer.rsp.status ≠ 0 := by
  obtain ⟨json, seq, rfl, ⟨hhdr, handle, hhandle, hfailed⟩ | ⟨hhdr, hfailed⟩⟩ := h
  · have hdec := reqOutcome_handler json .connFind seq _ hhdr rfl junk host world
    obtain ⟨outcome, hrun, _⟩ :=
      runReq_plain .connFind _ rfl nofun ⟨json, seq, junk⟩ host world
    obtain ⟨htype, hstatus⟩ := connFind_answer _ host world outcome handle hhandle hrun
    exact ⟨outcome, hdec.trans hrun, Or.inl htype, hstatus ▸ toInt_ne_zero _ hfailed⟩
  · have hdec := reqOutcome_handler json .findChr seq _ hhdr rfl junk host world
    obtain ⟨outcome, hrun, _⟩ :=
      runReq_plain .findChr _ rfl nofun ⟨json, seq, junk⟩ host world
    obtain ⟨htype, hzero⟩ := findChr_answer _ host world outcome hrun
    refine ⟨outcome, hdec.trans hrun, Or.inr htype, ?_⟩
    rw [ne_eq, hzero]
    rintro ⟨svcUuid, chrUuid, hsvc, hchr, hok⟩
    exact hfailed svcUuid chrUuid hsvc hchr hok

-- What keeps conn_find and find_chr from failing keeps their status at 0.
theorem unexposed_success (json : Json) (type : MsgType) (seq : UInt32) (run : ReqRun)
    (hhdr : msgHdrDec json = .ok ⟨.req, type, seq⟩) (hrun : reqDispatchFind type = some run)
    (junk : Junk) (host : Host) (world : World) (outcome : Outcome)
    (hok : runReq run ⟨json, seq, junk⟩ host (Rsp.cleared type seq) world = .ok outcome)
    (hsafe : ¬Exposes (some json) host)
    (htype : outcome.answer.rsp.hdr.type = .connFind ∨ outcome.answer.rsp.hdr.type = .findChr) :
    outcome.answer.rsp.status = 0 := by
  have hkept : outcome.answer.rsp.hdr.type = type := by
    rcases (runReq_hdr type run hrun ⟨json, seq, junk⟩ host world outcome hok).2.2 with hsame | herr
    · exact hsame
    · rw [herr] at htype
      rcases htype with hfalse | hfalse <;> cases hfalse
  rw [hkept] at htype
  rcases htype with rfl | rfl
  · cases hrun
    cases hhandle : jsonInt 0 0xffff json "conn_handle" with
    | error e =>
        rw [connFind_refused ⟨json, seq, junk⟩ host world outcome e hhandle hok] at hkept
        cases hkept
    | ok handle =>
        obtain ⟨_, hstatus⟩ :=
          connFind_answer ⟨json, seq, junk⟩ host world outcome handle hhandle hok
        rw [hstatus]
        by_contra hne
        have hfailed : host.result (.gapConnFind (UInt16.ofInt handle)) ≠ 0 := by
          intro hzero
          rw [hzero] at hne
          exact hne rfl
        exact hsafe ⟨json, seq, rfl, Or.inl ⟨hhdr, handle, hhandle, hfailed⟩⟩
  · cases hrun
    obtain ⟨_, hzero⟩ := findChr_answer ⟨json, seq, junk⟩ host world outcome hok
    rw [hzero]
    by_contra hne
    refine hsafe ⟨json, seq, rfl, Or.inr ⟨hhdr, ?_⟩⟩
    intro svcUuid chrUuid hsvc hchr hfailed
    exact hne ⟨svcUuid, chrUuid, hsvc, hchr, hfailed⟩

-- Every response with an error in its status is bare.
def FailuresBare (lib : Externs) (text : Text) (junk : Junk) (host : Host) (world : World) : Prop :=
  ∀ outcome obj, reqDec (lib.parse text) junk host world = .ok outcome →
    rspEnc lib.uuidToStr outcome.answer.rsp = .ok obj → FailureBare obj

theorem failures_bare_iff (lib : Externs) (text : Text) (junk : Junk) (host : Host)
    (world : World) : FailuresBare lib text junk host world ↔ ¬Exposes (lib.parse text) host := by
  constructor
  · intro hbare hexposes
    obtain ⟨outcome, houtcome, htype, hstatus⟩ :=
      exposes_fails (lib.parse text) junk host world hexposes
    have hdec := (reqDec_ok junk host world outcome).mpr
      ⟨exposes_inside (lib.parse text) host hexposes, houtcome⟩
    have henc : ∃ enc, rspDispatchFind outcome.answer.rsp.hdr.type = .ok enc := by
      rcases htype with htype | htype <;> exact ⟨_, by rw [htype]; rfl⟩
    have hsvcs := failed_svcs (lib.parse text) junk host world outcome houtcome hstatus
    obtain ⟨obj, hobj⟩ := rspEnc_total lib.uuidToStr _ henc hsvcs
    exact exposed_not_bare lib.uuidToStr _ obj htype hstatus hobj (hbare outcome obj hdec hobj)
  · intro hsafe outcome obj hdec hobj
    have hdec := reqDec_outcome junk host world hdec
    have hsvcs := failed_svcs (lib.parse text) junk host world outcome hdec
    by_cases htype : outcome.answer.rsp.hdr.type = .connFind ∨
        outcome.answer.rsp.hdr.type = .findChr
    · rcases reqOutcome_cases (lib.parse text) junk host world with
        ⟨rc, msg, seq, herr, _⟩ | ⟨json, type, seq, run, hroot, hhdr, hrun, hhandler, _⟩
      · obtain rfl := Except.ok.inj (hdec.symm.trans herr)
        rcases htype with hfalse | hfalse <;> cases hfalse
      · rw [hhandler] at hdec
        rw [hroot] at hsafe
        have hzero := unexposed_success json type seq run hhdr hrun junk host world outcome hdec
          hsafe htype
        refine bare_of_success lib.uuidToStr _ obj hobj ?_ ?_ hzero
        · rcases htype with htype | htype <;> rw [htype] <;> exact nofun
        · rcases htype with htype | htype <;> rw [htype] <;> exact nofun
    · obtain ⟨hconnFind, hfindChr⟩ := not_or.mp htype
      exact encoded_bare lib.uuidToStr _ obj hobj hconnFind hfindChr hsvcs

def connFindRequest : Json :=
  .object [(ascii "op", .string (ascii "request")), (ascii "type", .string (ascii "conn_find")),
    (ascii "seq", .number 7), (ascii "conn_handle", .number 1)]

def connFindOnly : Externs := ⟨fun _ => some connFindRequest, Json.layout 0, canonicalUuid⟩

-- A host without connections: BLE_HS_ENOTCONN for every call.
def lonelyHost : Host := { acceptingHost with result := fun _ => 7 }

def failedSearch : Rsp := ⟨⟨.rsp, .connFind, 7⟩, 7, .zero⟩

-- The response of the failed search names a connection handle all the same.
theorem failed_conn_find_not_bare : ∃ obj,
    reqDec (connFindOnly.parse []) zeroJunk lonelyHost World.initial =
      .ok ⟨1, ⟨failedSearch, World.initial, [.gapConnFind 1]⟩⟩ ∧
    rspEnc canonicalUuid failedSearch = .ok obj ∧
    obj.getObjectItem "status" = some (.number 7) ∧
    obj.getObjectItem "conn_handle" = some (.number 0) ∧
    ¬FailuresBare connFindOnly [] zeroJunk lonelyHost World.initial := by
  have hobj : ∃ obj, rspEnc canonicalUuid failedSearch = .ok obj ∧
      obj.getObjectItem "status" = some (.number 7) ∧
      obj.getObjectItem "conn_handle" = some (.number 0) := ⟨_, rfl, rfl, rfl⟩
  obtain ⟨obj, hencoded, hstatus, hhandle⟩ := hobj
  refine ⟨obj, rfl, hencoded, hstatus, hhandle, ?_⟩
  intro hbare
  have hfailure := hbare ⟨1, ⟨failedSearch, World.initial, [.gapConnFind 1]⟩⟩ obj rfl hencoded
  exact exposed_not_bare canonicalUuid failedSearch obj (Or.inl rfl) (by decide) hencoded hfailure

end Blehostd
