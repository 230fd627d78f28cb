import Mathlib.Data.List.Find
import Blehostd.Requests.Members
import Blehostd.System.Theorems

namespace Blehostd

theorem sameKey_iff (key : Text) (name : String) :
    Json.sameKey key name = true ↔ key.map tolower = (ascii name).map tolower := by
  simp [Json.sameKey]

-- At most one member has the name.
theorem find_unique {α : Type} (p : α → Bool) (l : List α)
    (h : ∀ a ∈ l, ∀ b ∈ l, p a = true → p b = true → a = b) (a : α) :
    l.find? p = some a ↔ a ∈ l ∧ p a = true := by
  constructor
  · intro hfind
    exact ⟨List.mem_of_find?_eq_some hfind, List.find?_some hfind⟩
  · rintro ⟨hmem, hp⟩
    cases hfind : l.find? p with
    | none => exact absurd hp (List.find?_eq_none.mp hfind a hmem)
    | some b =>
        have hb := h b (List.mem_of_find?_eq_some hfind) a hmem (List.find?_some hfind) hp
        rw [hb]

-- The order of the members does not matter where their names are different.
theorem getObjectItem_perm (members others : Members) (hperm : members.Perm others)
    (hdistinct : (members.map fun m => m.1.map tolower).Nodup) (name : String) :
    (Json.object members).getObjectItem name = (Json.object others).getObjectItem name := by
  have hunique : ∀ a ∈ members, ∀ b ∈ members, Json.sameKey a.1 name = true →
      Json.sameKey b.1 name = true → a = b := by
    intro a ha b hb hsame hsame'
    rw [sameKey_iff] at hsame hsame'
    exact List.inj_on_of_nodup_map hdistinct ha hb (hsame.trans hsame'.symm)
  have hfind : members.find? (fun m => Json.sameKey m.1 name) =
      others.find? fun m => Json.sameKey m.1 name := by
    apply Option.ext
    intro a
    rw [find_unique _ _ hunique, find_unique _ _ fun a ha b hb =>
      hunique a (hperm.mem_iff.mpr ha) b (hperm.mem_iff.mpr hb), hperm.mem_iff]
  simp only [Json.getObjectItem, hfind]

-- A member that is not named does not matter.
theorem getObjectItem_filter (members : Members) (keep : Text × Json → Bool) (name : String)
    (hkeep : ∀ m ∈ members, Json.sameKey m.1 name = true → keep m = true) :
    (Json.object (members.filter keep)).getObjectItem name =
      (Json.object members).getObjectItem name := by
  have hfind : (members.filter keep).find? (fun m => Json.sameKey m.1 name) =
      members.find? fun m => Json.sameKey m.1 name := by
    rw [List.find?_filter]
    apply List.find?_congr
    intro m hm
    by_cases hsame : Json.sameKey m.1 name = true
    · simp [hsame, hkeep m hm hsame]
    · simp [hsame]
  simp only [Json.getObjectItem, hfind]

def headerNames : List String := ["op", "type", "seq"]

-- Two objects that are the same request to the daemon.
structure SameRequest (root root' : Json) : Prop where
  header : SameNamed headerNames root root'
  members : ∀ hdr, msgHdrDec root = .ok hdr → SameNamed hdr.type.memberNames root root'

-- The members that a request of the type is made of.
def MsgType.reads (type : MsgType) (m : Text × Json) : Bool :=
  (headerNames ++ type.memberNames).any fun name => Json.sameKey m.1 name

-- Objects with the same members of the request, in any order and between any others.
theorem sameRequest_of_perm (members others : Members) (type : MsgType)
    (htype : ∀ hdr, msgHdrDec (.object members) = .ok hdr → hdr.type = type)
    (hperm : (members.filter type.reads).Perm (others.filter type.reads))
    (hdistinct : ((members.filter type.reads).map fun m => m.1.map tolower).Nodup) :
    SameRequest (.object members) (.object others) := by
  have hnamed (name : String) (hname : name ∈ headerNames ++ type.memberNames) :
      (Json.object members).getObjectItem name = (Json.object others).getObjectItem name := by
    have hreads (m : Text × Json) (hm : Json.sameKey m.1 name = true) : type.reads m = true :=
      List.any_eq_true.mpr ⟨name, hname, hm⟩
    rw [← getObjectItem_filter members type.reads name fun m _ => hreads m,
      ← getObjectItem_filter others type.reads name fun m _ => hreads m]
    exact getObjectItem_perm _ _ hperm hdistinct name
  refine ⟨fun name hname => hnamed name (List.mem_append_left _ hname), ?_⟩
  intro hdr hhdr name hname
  rw [htype hdr hhdr] at hname
  exact hnamed name (List.mem_append_right _ hname)

theorem msgHdrDec_same (root root' : Json) (h : SameNamed headerNames root root') :
    msgHdrDec root = msgHdrDec root' := by
  have hop := (ofMember_kv opMap).same root root' "op" (h _ (by simp [headerNames]))
  have htype := (ofMember_kv typeMap).same root root' "type" (h _ (by simp [headerNames]))
  have hseq := (ofMember_int 0 BHD_SEQ_MAX.toNat).same root root' "seq"
    (h _ (by simp [headerNames]))
  simp only [msgHdrDec, hop, htype, hseq]

theorem reqOutcome_same (root root' : Json) (h : SameRequest root root') (junk : Junk)
    (host : Host) (world : World) :
    reqOutcome (some root) junk host world = reqOutcome (some root') junk host world := by
  have hhdr := msgHdrDec_same root root' h.header
  cases hdec : msgHdrDec root with
  | error e => simp only [reqOutcome, ← hhdr, hdec]
  | ok hdr =>
      have hsame := h.members hdr hdec
      simp only [reqOutcome, ← hhdr, hdec]
      by_cases hop : hdr.op = .req
      · simp only [hop, ne_eq, not_true_eq_false, if_false]
        cases hrun : reqDispatchFind hdr.type with
        | none => rfl
        | some run =>
            simp only [runReq, reqDispatchFind_same hdr.seq junk hdr.type run hrun hsame]
      · simp only [ne_eq, hop, not_false_eq_true, if_true]

-- The blocks of a request are those of its services.
theorem reqWrites_same (root root' : Json) (h : SameRequest root root') (junk : Junk) :
    reqWrites (some root) junk = reqWrites (some root') junk := by
  have hhdr := msgHdrDec_same root root' h.header
  simp only [reqWrites, ← hhdr]
  split
  · rename_i seq hdec
    have hservices : root.getObjectItem "services" = root'.getObjectItem "services" :=
      h.members _ hdec "services" (by simp [MsgType.memberNames])
    simp only [addSvcsWrites, jsonArr, member, hservices]
  · rfl

theorem reqDec_same (root root' : Json) (h : SameRequest root root') (junk : Junk) (host : Host)
    (world : World) : reqDec (some root) junk host world = reqDec (some root') junk host world := by
  unfold reqDec
  rw [reqWrites_same root root' h junk, reqOutcome_same root root' h junk host world]

-- Two actions that are the same one, or requests with objects that are the same request.
inductive SameAct (lib : Externs) : SysAct → SysAct → Prop where
  | refl (act : SysAct) : SameAct lib act act
  | request (packet packet' : Mbuf) (root root' : Json) (junk : Junk) (host : Host) (block : Nat)
      (hroot : lib.parse (reqText packet) = some root)
      (hroot' : lib.parse (reqText packet') = some root') (h : SameRequest root root') :
      SameAct lib (.request packet junk host block) (.request packet' junk host block)

theorem SameAct.step {lib : Externs} {act act' : SysAct} (h : SameAct lib act act') (s : System) :
    System.step lib s act = System.step lib s act' := by
  cases h with
  | refl => rfl
  | request packet packet' root root' junk host block hroot hroot' hsame =>
      have hdec := reqDec_same root root' hsame junk host s.world
      cases hpending : s.pending with
      | some rsp => simp only [System.step, hpending]
      | none => simp only [System.step, hpending, hroot, hroot', hdec]

-- Members that a request does not have, their order and the case of their names make no
-- difference to a run.
theorem run_by_name (lib : Externs) (acts others : List SysAct)
    (h : List.Forall₂ (SameAct lib) acts others) :
    Transition.run (System.step lib) System.initial acts =
      Transition.run (System.step lib) System.initial others :=
  Transition.run_congr (h.imp fun _ _ hsame => hsame.step) System.initial

def discChrsMembers : Members :=
  [(ascii "op", .string (ascii "request")), (ascii "type", .string (ascii "disc_all_chrs")),
    (ascii "seq", .number 7), (ascii "conn_handle", .number 1), (ascii "start_handle", .number 10),
    (ascii "end_handle", .number 20)]

-- The packet 1 has the members the other way round, behind one that no request has.
def shuffledExterns : Externs :=
  { discChrsExterns with
    parse := fun packet =>
      if packet = [1] then some (.object ((ascii "note", .null) :: discChrsMembers.reverse))
      else some (.object discChrsMembers) }

theorem discChrs_by_name :
    Transition.run (System.step shuffledExterns) System.initial
        [.request [] zeroJunk acceptingHost 5, .respond] =
      Transition.run (System.step shuffledExterns) System.initial
        [.request [1] zeroJunk acceptingHost 5, .respond] := by
  have hsame : SameRequest (.object discChrsMembers)
      (.object ((ascii "note", .null) :: discChrsMembers.reverse)) := by
    apply sameRequest_of_perm _ _ .discAllChrs
    · intro hdr hhdr
      obtain rfl := Except.ok.inj hhdr
      rfl
    · exact (List.reverse_perm discChrsMembers).symm
    · decide
  apply run_by_name
  exact .cons (.request [] [1] _ _ zeroJunk acceptingHost 5 rfl rfl hsame)
    (.cons (.refl .respond) .nil)

end Blehostd
