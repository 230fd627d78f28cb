import Blehostd.Responses.Reading
import Blehostd.System.Wire

namespace Blehostd

open Framing (stream stream_cons)

-- Different texts are different streams, whatever comes behind them.
theorem lengthHeader_inj (n m : Nat) (hn : n ≤ BLEHOSTD_MAX_MSG_SZ) (hm : m ≤ BLEHOSTD_MAX_MSG_SZ)
    (h : lengthHeader n = lengthHeader m) : n = m := by
  have hread := congrArg (fun header => ntohs (storeBytes16 0 header)) h
  unfold BLEHOSTD_MAX_MSG_SZ at hn hm
  simp only [ntohs_lengthHeader n (by omega), ntohs_lengthHeader m (by omega)] at hread
  exact hread

theorem stream_inj (texts others : List Text) (hfit : ∀ text ∈ texts, Fits text)
    (hother : ∀ text ∈ others, Fits text)
    (h : stream lengthHeader texts = stream lengthHeader others) : texts = others := by
  induction texts generalizing others with
  | nil =>
      cases others with
      | nil => rfl
      | cons text others =>
          rw [stream_cons] at h
          cases h
  | cons text texts ih =>
      cases others with
      | nil =>
          rw [stream_cons] at h
          cases h
      | cons other others =>
          rw [stream_cons, stream_cons] at h
          obtain ⟨hheader, htail⟩ := List.append_inj h rfl
          have hlen := lengthHeader_inj _ _ (hfit text List.mem_cons_self).2
            (hother other List.mem_cons_self).2 hheader
          obtain ⟨htext, hrest⟩ := List.append_inj htail hlen
          have hlater := ih others (fun a ha => hfit a (List.mem_cons_of_mem _ ha))
            (fun a ha => hother a (List.mem_cons_of_mem _ ha)) hrest
          rw [htext, hlater]

-- The object of a message that is put on the queue.
def Message.roots (lib : Externs) (m : Message) : List Json :=
  match m.root lib.uuidToStr with
  | .error _ => []
  | .ok root => if BLEHOSTD_MAX_MSG_SZ < (lib.print root).length then [] else [root]

theorem Message.frames_roots (lib : Externs) (m : Message) :
    Message.frames lib m = (m.roots lib).map fun root => rspFrame (lib.print root) := by
  unfold Message.frames Message.roots
  cases m.root lib.uuidToStr with
  | error fault => rfl
  | ok root =>
      simp only [enqueueRsp]
      split_ifs <;> rfl

theorem Message.root_fits (lib : Externs) (hlib : lib.Prints) (m : Message) (root : Json)
    (hroot : m.root lib.uuidToStr = .ok root)
    (hshort : ¬BLEHOSTD_MAX_MSG_SZ < (lib.print root).length) : Fits (lib.print root) := by
  obtain ⟨members, rfl⟩ := Message.root_header lib.uuidToStr m root hroot
  have hpos : 1 ≤ (lib.print (.object (msgHdrEnc m.hdr ++ members))).length := by
    rw [hlib.print, Json.layout_object_length _ _ (by simp [msgHdrEnc, addInt])]
    omega
  exact ⟨hpos, by omega⟩

theorem Message.roots_fit (lib : Externs) (hlib : lib.Prints) (m : Message) (root : Json)
    (h : root ∈ m.roots lib) : Fits (lib.print root) := by
  unfold Message.roots at h
  cases hroot : m.root lib.uuidToStr with
  | error fault => simp [hroot] at h
  | ok other =>
      simp only [hroot] at h
      split_ifs at h with hlong
      · exact absurd h List.not_mem_nil
      · obtain rfl := List.mem_singleton.mp h
        exact Message.root_fits lib hlib m root hroot hlong

def Message.op : Message → MsgOp
  | .rsp _ => .rsp
  | .evt _ => .evt

def isEvent (root : Json) : Bool :=
  match root.getObjectItem "op" with
  | some (.string text) => text = ascii "event"
  | _ => false

-- A response and an event are told apart by their op.
theorem isEvent_root (uuidToStr : Uuid → Text) (m : Message) (hop : m.hdr.op = m.op) (root : Json)
    (h : m.root uuidToStr = .ok root) : isEvent root = decide (m.op = .evt) := by
  obtain ⟨members, rfl⟩ := Message.root_header uuidToStr m root h
  obtain ⟨hitem, -, -⟩ := header_item m.hdr members
  unfold isEvent
  rw [hitem, hop]
  cases m.op <;> decide

-- What the client learns of a message.
inductive News where
  | rsp (hdr : MsgHdr) (told : Told)
  | evt (evt : Evt)

def Message.news : Message → News
  | .rsp r => .rsp r.hdr r.told
  | .evt e => .evt e.seen

-- A message that is too long never gets to the client.
def newsOf (lib : Externs) (sent : List Message) : List News :=
  (sent.filter fun m => (Message.frames lib m).isEmpty = false).map Message.news

-- A message with the operation of its kind, and an event that can be written.
structure Message.Sound (m : Message) : Prop where
  op : m.hdr.op = m.op
  evt : ∀ e, m = .evt e → e.Sound

theorem news_of_root (uuidToStr : Uuid → Text) (huuid : ∀ a b, uuidToStr a = uuidToStr b → a = b)
    (m other : Message) (hm : m.Sound) (hother : other.Sound) (root : Json)
    (h : m.root uuidToStr = .ok root) (h' : other.root uuidToStr = .ok root) :
    m.news = other.news := by
  have hkind := isEvent_root uuidToStr m hm.op root h
  rw [isEvent_root uuidToStr other hother.op root h'] at hkind
  cases m with
  | rsp r =>
      cases other with
      | rsp r' =>
          obtain ⟨hhdr, htold⟩ := (rspEnc_told_iff uuidToStr huuid r r' root h).mp h'
          rw [Message.news, Message.news, hhdr, htold]
      | evt e => cases hkind
  | evt e =>
      cases other with
      | rsp r => cases hkind
      | evt e' =>
          have he := hm.evt e rfl
          have he' := hother.evt e' rfl
          have hseen := (evtEnc_seen_iff uuidToStr huuid e e' he.type he'.type he.fits
            he'.fits).mp (Eq.trans h h'.symm)
          rw [Message.news, Message.news, hseen]

theorem roots_cases (lib : Externs) (m : Message) :
    (Message.frames lib m = [] ∧ m.roots lib = []) ∨
    ∃ root, (Message.frames lib m).isEmpty = false ∧ m.roots lib = [root] ∧
      m.root lib.uuidToStr = .ok root := by
  rw [Message.frames_roots]
  unfold Message.roots
  cases hroot : m.root lib.uuidToStr with
  | error fault => exact Or.inl ⟨rfl, rfl⟩
  | ok root =>
      by_cases hlong : BLEHOSTD_MAX_MSG_SZ < (lib.print root).length
      · simp [hlong]
      · right
        exact ⟨root, by simp [hlong], by simp [hlong], rfl⟩

-- The objects are those of the messages that get to the client.
theorem roots_visible (lib : Externs) (sent : List Message) :
    sent.flatMap (Message.roots lib) =
      (sent.filter fun m => (Message.frames lib m).isEmpty = false).flatMap
        (Message.roots lib) := by
  induction sent with
  | nil => rfl
  | cons m rest ih =>
      rw [List.flatMap_cons, ih]
      rcases roots_cases lib m with ⟨hframes, hroots⟩ | ⟨root, hframes, -, -⟩
      · rw [List.filter_cons_of_neg (by simp [hframes]), hroots, List.nil_append]
      · rw [List.filter_cons_of_pos (by simp [hframes]), List.flatMap_cons]

theorem news_of_roots (lib : Externs)
    (huuid : ∀ a b, lib.uuidToStr a = lib.uuidToStr b → a = b) (sent later : List Message)
    (hsent : ∀ m ∈ sent, m.Sound ∧ (Message.frames lib m).isEmpty = false)
    (hlater : ∀ m ∈ later, m.Sound ∧ (Message.frames lib m).isEmpty = false)
    (h : sent.flatMap (Message.roots lib) = later.flatMap (Message.roots lib)) :
    sent.map Message.news = later.map Message.news := by
  have hroot (m : Message) (hm : (Message.frames lib m).isEmpty = false) :
      ∃ root, m.roots lib = [root] ∧ m.root lib.uuidToStr = .ok root := by
    rcases roots_cases lib m with ⟨hframes, -⟩ | ⟨root, -, hroots, hok⟩
    · simp [hframes] at hm
    · exact ⟨root, hroots, hok⟩
  induction sent generalizing later with
  | nil =>
      cases later with
      | nil => rfl
      | cons m later =>
          obtain ⟨root, hroots, -⟩ := hroot m (hlater m List.mem_cons_self).2
          rw [List.flatMap_cons, hroots] at h
          cases h
  | cons m sent ih =>
      obtain ⟨hm, hvisible⟩ := hsent m List.mem_cons_self
      obtain ⟨root, hroots, hok⟩ := hroot m hvisible
      rw [List.flatMap_cons, hroots] at h
      cases later with
      | nil => cases h
      | cons other later =>
          obtain ⟨hother, hvisible'⟩ := hlater other List.mem_cons_self
          obtain ⟨root', hroots', hok'⟩ := hroot other hvisible'
          rw [List.flatMap_cons, hroots'] at h
          obtain ⟨rfl, hrest⟩ := List.cons.inj h
          rw [List.map_cons, List.map_cons,
            news_of_root lib.uuidToStr huuid m other hm hother root hok hok',
            ih later (fun a ha => hsent a (List.mem_cons_of_mem _ ha))
              (fun a ha => hlater a (List.mem_cons_of_mem _ ha)) hrest]

theorem Explained.sound {lib : Externs} {acts : List SysAct} {t : Service}
    (h : Explained lib acts t) (m : Message) (hm : m ∈ t.sent) : m.Sound := by
  cases m with
  | rsp r =>
      obtain ⟨packet, hanswer⟩ := h.response r hm
      refine ⟨hanswer.op, ?_⟩
      intro e he
      exact absurd he (by simp)
  | evt e =>
      obtain ⟨hsound, -⟩ := h.events e hm
      refine ⟨hsound.op, ?_⟩
      rintro other hother
      obtain rfl := Message.evt.inj hother
      exact hsound

-- The bytes of the daemon are those of the objects of its messages.
theorem bytes_roots (lib : Externs) (sent : List Message) :
    (sent.flatMap (Message.frames lib)).flatten =
      stream lengthHeader ((sent.flatMap (Message.roots lib)).map lib.print) := by
  have hframes : sent.flatMap (Message.frames lib) =
      (sent.flatMap (Message.roots lib)).map fun root => rspFrame (lib.print root) := by
    rw [List.map_flatMap]
    exact List.flatMap_congr fun m _ => Message.frames_roots lib m
  rw [hframes, Framing.stream, List.map_map]
  rfl

theorem roots_of_bytes (lib : Externs) (hlib : lib.Prints) (sent later : List Message)
    (h : (sent.flatMap (Message.frames lib)).flatten =
      (later.flatMap (Message.frames lib)).flatten) :
    sent.flatMap (Message.roots lib) = later.flatMap (Message.roots lib) := by
  have hfit (messages : List Message) :
      ∀ text ∈ (messages.flatMap (Message.roots lib)).map lib.print, Fits text := by
    intro text htext
    obtain ⟨root, hroot, rfl⟩ := List.mem_map.mp htext
    obtain ⟨m, -, hroot⟩ := List.mem_flatMap.mp hroot
    exact m.roots_fit lib hlib root hroot
  have hprint : Function.Injective lib.print := by
    intro a b hab
    rw [hlib.print, hlib.print] at hab
    exact layout_injective 0 a b hab
  rw [bytes_roots, bytes_roots] at h
  exact List.map_injective_iff.mpr hprint (stream_inj _ _ (hfit sent) (hfit later) h)

-- Whatever the host does, two runs that send the same bytes tell the client the same.
theorem bytes_tell_news (lib : Externs) (hlib : lib.Prints)
    (huuid : ∀ uuid, lib.uuidToStr uuid = canonicalUuid uuid) (acts others : List SysAct)
    (s other : System) (hrun : Transition.run (System.step lib) System.initial acts = some s)
    (hother : Transition.run (System.step lib) System.initial others = some other)
    (hbytes : s.put.flatten = other.put.flatten) :
    ∃ t u, Transition.run (Service.step lib) Service.initial acts = some t ∧
      Transition.run (Service.step lib) Service.initial others = some u ∧
      newsOf lib t.sent = newsOf lib u.sent := by
  obtain ⟨t, ht, hR⟩ := run_refines lib hlib acts s hrun
  obtain ⟨u, hu, hR'⟩ := run_refines lib hlib others other hother
  have hsound := (run_explained lib acts t ht).sound
  have hsound' := (run_explained lib others u hu).sound
  have hinj : ∀ a b, lib.uuidToStr a = lib.uuidToStr b → a = b := by
    intro a b hab
    rw [huuid, huuid] at hab
    exact canonicalUuid_inj a b hab
  rw [hR.put, hR'.put] at hbytes
  have hroots := roots_of_bytes lib hlib t.sent u.sent hbytes
  rw [roots_visible lib t.sent, roots_visible lib u.sent] at hroots
  refine ⟨t, u, ht, hu, news_of_roots lib hinj _ _ ?_ ?_ hroots⟩
  · intro m hm
    obtain ⟨hmem, hvisible⟩ := List.mem_filter.mp hm
    exact ⟨hsound m hmem, of_decide_eq_true hvisible⟩
  · intro m hm
    obtain ⟨hmem, hvisible⟩ := List.mem_filter.mp hm
    exact ⟨hsound' m hmem, of_decide_eq_true hvisible⟩

-- malloc gives out another block.
def discChrsMoved : List SysAct :=
  .request [] zeroJunk acceptingHost 6 :: discChrsActs.tail

theorem discChrsMoved_allowed : Transition.Meets (System.step discChrsExterns)
    (System.Allowed discChrsExterns) System.initial discChrsMoved :=
  ⟨⟨rfl, not_overruns rfl (by decide)⟩,
    fun _ _ => ⟨trivial, fun _ _ => ⟨trivial, fun _ _ => trivial⟩⟩⟩

theorem discChrs_told : ∃ t u,
    Transition.run (Service.step discChrsExterns) Service.initial discChrsActs = some t ∧
    Transition.run (Service.step discChrsExterns) Service.initial discChrsMoved = some u ∧
    newsOf discChrsExterns t.sent = newsOf discChrsExterns u.sent := by
  obtain ⟨v, hv, -⟩ := discChrs_service
  have hmoved : Transition.run (Service.step discChrsExterns) Service.initial discChrsMoved =
      some v := hv
  obtain ⟨s, hs, hR⟩ := run_of_service discChrsExterns discChrs_prints discChrsActs
    discChrs_allowed v hv
  obtain ⟨other, hother, hR'⟩ := run_of_service discChrsExterns discChrs_prints discChrsMoved
    discChrsMoved_allowed v hmoved
  have hbytes : s.put.flatten = other.put.flatten := by rw [hR.put, hR'.put]
  exact bytes_tell_news discChrsExterns discChrs_prints (fun _ => rfl) discChrsActs
    discChrsMoved s other hs hother hbytes

end Blehostd
