import Mathlib.Data.List.Basic

namespace Blehostd

-- A C string is the bytes before its NUL.
abbrev Text := List UInt8

def ascii (s : String) : Text :=
  s.toList.map fun c => UInt8.ofNat c.toNat

def tolower (c : UInt8) : UInt8 :=
  if 65 ≤ c ∧ c ≤ 90 then c + 32 else c

-- What cJSON keeps of a value: of a number only the valueint field is used.
inductive Json where
  | null
  | false
  | true
  | number (valueint : Int)
  | string (valuestring : Text)
  | array (items : List Json)
  | object (members : List (Text × Json))

namespace Json

def sameKey (key : Text) (name : String) : Bool :=
  key.map tolower = (ascii name).map tolower

-- cJSON_GetObjectItem takes the first member whose key is the name, up to the
-- case of the letters. A value that is not an object has no named member.
def getObjectItem (parent : Json) (name : String) : Option Json :=
  match parent with
  | .object members => (members.find? fun member => sameKey member.1 name).map Prod.snd
  | _ => none

def createBool (value : Bool) : Json :=
  if value then .true else .false

end Json

-- The members of an object in the order in which they were added.
abbrev Members := List (Text × Json)

def addInt (name : String) (value : Int) : Members :=
  [(ascii name, .number value)]

def addBool (name : String) (value : Bool) : Members :=
  [(ascii name, Json.createBool value)]

def addText (name : String) (value : Text) : Members :=
  [(ascii name, .string value)]

def addString (name value : String) : Members :=
  addText name (ascii value)

def addItem (name : String) (item : Json) : Members :=
  [(ascii name, item)]

end Blehostd
