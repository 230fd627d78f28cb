import Mathlib.Logic.Function.Basic
import Blehostd.Services

namespace Blehostd

-- An element of an allocated block that a decoder writes to.
structure ElemWrite where
  index : Nat
  count : Nat
deriving DecidableEq, Repr

def ElemWrite.Inside (w : ElemWrite) : Prop :=
  w.index < w.count

instance : DecidablePred ElemWrite.Inside :=
  fun w => inferInstanceAs (Decidable (w.index < w.count))

-- The service decoders with the blocks that they fill.
abbrev Filling (α : Type) := Decoder ElemWrite SvcErr α

-- An element is cleared before it is decoded.
def clearElem (index count : Nat) : Filling Unit :=
  .look ⟨index, count⟩ (.ok ())

-- Every item goes to `dscs + num_dscs`.
def fillDscs (numDscs : Nat) : List Json → (Nat → Gatts.Dsc) → Filling (Nat → Gatts.Dsc)
  | [], dscs => pure dscs
  | item :: rest, dscs => do
      clearElem numDscs numDscs
      let dsc ← (jsonDsc item).silent
      fillDscs numDscs rest (Function.update dscs numDscs dsc)

def fillChr (junk : Nat → Gatts.Dsc) (parent : Json) : Filling Gatts.Chr := do
  let uuid ← (need parent "uuid" jsonUuid (svcErr "invalid characteristic UUID")).silent
  let flags ← (need parent "flags" (jsonInt 0 UINT16_MAX)
    (svcErr "invalid characteristic flags")).silent
  let minKeySize ← (need parent "min_key_size" (jsonInt 0 UINT8_MAX)
    (svcErr "invalid characteristic flags")).silent
  let arr ← (want parent "descriptors" jsonArr (svcErr "invalid descriptors")).silent
  let items := arr.getD []
  let dscs ← fillDscs items.length items junk
  pure ⟨uuid, UInt16.ofInt flags, UInt8.ofInt minKeySize, (List.range items.length).map dscs⟩

-- Item ci goes to `chrs + ci`.
def fillChrs (junk : Nat → Nat → Gatts.Dsc) (numChrs : Nat) :
    Nat → List Json → (Nat → Gatts.Chr) → Filling (Nat → Gatts.Chr)
  | _, [], chrs => pure chrs
  | ci, item :: rest, chrs => do
      clearElem ci numChrs
      let chr ← fillChr (junk ci) item
      fillChrs junk numChrs (ci + 1) rest (Function.update chrs ci chr)

def fillSvc (junkChrs : Nat → Gatts.Chr) (junk : Nat → Nat → Gatts.Dsc) (parent : Json) :
    Filling Gatts.Svc := do
  let type ← (need parent "type" jsonSvcType (svcErr "invalid service type")).silent
  let uuid ← (need parent "uuid" jsonUuid (svcErr "invalid service UUID")).silent
  let arr ← (want parent "characteristics" jsonArr (svcErr "invalid characteristics")).silent
  let items := arr.getD []
  let chrs ← fillChrs junk items.length 0 items junkChrs
  pure ⟨type, uuid, (List.range items.length).map chrs⟩

-- The loop of the add_svcs handler. Item si goes to `svcs + si`, and what its block of
-- characteristics holds before is never read.
def fillSvcs (junk : Nat → Nat → Nat → Gatts.Dsc) (items : List Json) :
    Filling (List Gatts.Svc) :=
  Decoder.each (fun si item => do
    clearElem si items.length
    fillSvc (fun _ => ⟨.u16 0, 0, 0, []⟩) (junk si) item) 0 items

end Blehostd
