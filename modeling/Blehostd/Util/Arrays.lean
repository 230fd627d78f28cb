import Mathlib.Data.List.Forall2
import Blehostd.Util

namespace Blehostd

section Elements

variable {α : Type}

-- What the caller of an array decoder may rely on: it succeeds for an array that
-- fits and whose elements all decode, and then gives all of them in order.
def Complete (process : Json → Except ErrCode α) (maxElems : Nat) (items : List Json)
    (result : Except ErrCode (List α)) : Prop :=
  ((∃ elems, result = .ok elems) ↔
    items.length ≤ maxElems ∧ ∀ item ∈ items, ∃ elem, process item = .ok elem) ∧
  ∀ elems, result = .ok elems → List.Forall₂ (fun item elem => process item = .ok elem) items elems

-- An empty array, or a single element that decodes and has room.
def AtMostOne (process : Json → Except ErrCode α) (maxElems : Nat) (items : List Json) : Prop :=
  items = [] ∨ ∃ item elem, items = [item] ∧ process item = .ok elem ∧ 0 < maxElems

-- What the loop ends with: the first element that decodes, if there is room.
def firstElem (process : Json → Except ErrCode α) (maxElems : Nat) (items : List Json) : List α :=
  if maxElems = 0 then [] else (items.findSome? fun item => (process item).toOption).toList

theorem arrLoop_first (process : Json → Except ErrCode α) (maxElems : Nat) (items : List Json) :
    arrLoop (arrFn maxElems process) [] items = (none, firstElem process maxElems items) := by
  induction items with
  | nil => simp [arrLoop, firstElem]
  | cons item rest ih =>
      unfold firstElem at ih ⊢
      by_cases hmax : maxElems = 0
      · simp only [hmax, if_true] at ih ⊢
        simp only [arrLoop, arrFn, List.length_nil, Nat.le_refl, if_true, ih]
      · simp only [hmax, if_false] at ih ⊢
        have hroom : ¬maxElems ≤ 0 := by omega
        cases helem : process item with
        | error e =>
            simp only [arrLoop, arrFn, List.length_nil, hroom, if_false, if_true, helem, ih,
              List.findSome?_cons, Except.toOption]
        | ok elem =>
            simp only [arrLoop, arrFn, List.length_nil, hroom, if_false, helem,
              Bool.false_eq_true, List.findSome?_cons, Except.toOption, List.nil_append,
              Option.toList_some]

theorem jsonArrGen_first (process : Json → Except ErrCode α) (maxElems : Nat) (parent : Json)
    (name : String) (items : List Json) (h : parent.getObjectItem name = some (.array items)) :
    jsonArrGen maxElems process parent name = .ok (firstElem process maxElems items) := by
  simp only [jsonArrGen, jsonArr, member, h, arrLoop_first, checked, bind, Except.bind]

theorem firstElem_length (process : Json → Except ErrCode α) (maxElems : Nat)
    (items : List Json) : (firstElem process maxElems items).length ≤ 1 := by
  unfold firstElem
  split_ifs
  · exact Nat.zero_le 1
  · cases items.findSome? fun item => (process item).toOption <;> simp

theorem complete_iff (process : Json → Except ErrCode α) (maxElems : Nat) (items : List Json) :
    Complete process maxElems items (.ok (firstElem process maxElems items)) ↔
      AtMostOne process maxElems items := by
  constructor
  · intro hcomplete
    obtain ⟨hfits, hdecode⟩ := hcomplete.1.mp ⟨_, rfl⟩
    have hlength := (hcomplete.2 _ rfl).length_eq
    have hshort := firstElem_length process maxElems items
    match items with
    | [] => exact Or.inl rfl
    | [item] =>
        obtain ⟨elem, helem⟩ := hdecode item (List.mem_singleton_self item)
        exact Or.inr ⟨item, elem, rfl, helem, hfits⟩
    | _ :: _ :: _ =>
        simp only [List.length_cons] at hlength
        omega
  · intro hone
    rcases hone with rfl | ⟨item, elem, rfl, helem, hroom⟩
    · have hnone : firstElem process maxElems [] = [] := by simp [firstElem]
      rw [hnone]
      exact ⟨by simp, by simp⟩
    · have hfirst : firstElem process maxElems [item] = [elem] := by
        simp [firstElem, helem, Except.toOption, Nat.ne_of_gt hroom]
      rw [hfirst]
      refine ⟨?_, ?_⟩
      · simp only [List.length_singleton, List.mem_singleton, forall_eq, helem, Except.ok.injEq,
          exists_eq', and_true, true_iff]
        exact hroom
      · intro elems helems
        rw [← Except.ok.inj helems]
        exact .cons helem .nil

-- The elements of a list of integers are stored in a narrower type.
theorem firstElem_map {β : Type} (f : α → β) (process : Json → Except ErrCode α) (maxElems : Nat)
    (items : List Json) : (firstElem process maxElems items).map f =
      firstElem (fun item => (process item).map f) maxElems items := by
  unfold firstElem
  by_cases hmax : maxElems = 0
  · simp only [hmax, if_true, List.map_nil]
  · simp only [hmax, if_false]
    induction items with
    | nil => rfl
    | cons item rest ih =>
        cases helem : process item with
        | error e =>
            simpa only [List.findSome?_cons, helem, Except.map, Except.toOption] using ih
        | ok elem =>
            simp only [List.findSome?_cons, helem, Except.map, Except.toOption,
              Option.toList_some, List.map_cons, List.map_nil]

end Elements

-- An element of a list of integers, decoded on its own.
def uint16Elem (minval maxval : UInt16) (item : Json) : Except ErrCode UInt16 :=
  let (val, rc) := processJsonIntBounds minval.toNat maxval.toNat item
  (checked val rc).map UInt16.ofInt

def uint32Elem (minval maxval : UInt32) (item : Json) : Except ErrCode UInt32 :=
  let (val, rc) := processJsonIntBounds minval.toNat maxval.toNat item
  (checked val rc).map UInt32.ofInt

section Decoders

variable (parent : Json) (name : String) (items : List Json) (maxElems : Nat)
  (h : parent.getObjectItem name = some (.array items))

include h

theorem jsonArrUint16_first (minval maxval : UInt16) :
    jsonArrUint16 maxElems minval maxval parent name =
      .ok (firstElem (uint16Elem minval maxval) maxElems items) := by
  unfold jsonArrUint16 jsonArrLlong
  rw [jsonArrGen_first _ maxElems parent name items h]
  exact congrArg Except.ok (firstElem_map UInt16.ofInt _ maxElems items)

theorem jsonArrUint32_first (minval maxval : UInt32) :
    jsonArrUint32 maxElems minval maxval parent name =
      .ok (firstElem (uint32Elem minval maxval) maxElems items) := by
  unfold jsonArrUint32 jsonArrLlong
  rw [jsonArrGen_first _ maxElems parent name items h]
  exact congrArg Except.ok (firstElem_map UInt32.ofInt _ maxElems items)

theorem arrays_complete_iff :
    (∀ minval maxval : UInt16, Complete (uint16Elem minval maxval) maxElems items
        (jsonArrUint16 maxElems minval maxval parent name) ↔
      AtMostOne (uint16Elem minval maxval) maxElems items) ∧
    (∀ minval maxval : UInt32, Complete (uint32Elem minval maxval) maxElems items
        (jsonArrUint32 maxElems minval maxval parent name) ↔
      AtMostOne (uint32Elem minval maxval) maxElems items) ∧
    (∀ elemSz : Nat, Complete (hexStringElem elemSz) maxElems items
        (jsonArrHexString elemSz maxElems parent name) ↔
      AtMostOne (hexStringElem elemSz) maxElems items) ∧
    (Complete processJsonAddr maxElems items (jsonArrAddr maxElems parent name) ↔
      AtMostOne processJsonAddr maxElems items) ∧
    (Complete processJsonUuid maxElems items (jsonArrUuid maxElems parent name) ↔
      AtMostOne processJsonUuid maxElems items) := by
  refine ⟨?_, ?_, ?_, ?_, ?_⟩
  · intro minval maxval
    rw [jsonArrUint16_first parent name items maxElems h]
    exact complete_iff _ maxElems items
  · intro minval maxval
    rw [jsonArrUint32_first parent name items maxElems h]
    exact complete_iff _ maxElems items
  · intro elemSz
    rw [jsonArrHexString, jsonArrGen_first _ maxElems parent name items h]
    exact complete_iff _ maxElems items
  · rw [jsonArrAddr, jsonArrGen_first _ maxElems parent name items h]
    exact complete_iff _ maxElems items
  · rw [jsonArrUuid, jsonArrGen_first _ maxElems parent name items h]
    exact complete_iff _ maxElems items

end Decoders

def uuidList (items : List Json) : Json :=
  .object [(ascii "uuids16", .array items)]

theorem single_uuid_complete : Complete (uint16Elem 0 0xffff) 15 [.number 0x180d]
    (jsonArrUint16 15 0 0xffff (uuidList [.number 0x180d]) "uuids16") := by
  refine ((arrays_complete_iff _ "uuids16" [.number 0x180d] 15 rfl).1 0 0xffff).mpr ?_
  exact Or.inr ⟨_, 0x180d, rfl, rfl, by decide⟩

-- Both elements are good and there is room: the second one is dropped.
theorem second_uuid_dropped :
    jsonArrUint16 15 0 0xffff (uuidList [.number 0x180d, .number 0x180f]) "uuids16" =
      .ok [0x180d] ∧
    ¬Complete (uint16Elem 0 0xffff) 15 [.number 0x180d, .number 0x180f]
      (jsonArrUint16 15 0 0xffff (uuidList [.number 0x180d, .number 0x180f]) "uuids16") := by
  have hdropped : jsonArrUint16 15 0 0xffff (uuidList [.number 0x180d, .number 0x180f])
      "uuids16" = .ok [0x180d] := by rfl
  refine ⟨hdropped, ?_⟩
  intro hcomplete
  rw [hdropped] at hcomplete
  exact absurd (hcomplete.2 _ rfl).length_eq (by decide)

-- An element that does not decode is passed over.
example : jsonArrUint16 15 0 0xffff (uuidList [.null, .number 0x180d, .null]) "uuids16" =
    .ok [0x180d] := by
  rfl

end Blehostd
