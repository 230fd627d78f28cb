import Mathlib.Data.Nat.Digits.Defs
import Blehostd.Json

-- The text of a value as cJSON_Print lays it out: one line for each member,
-- indented with tabs, and the items of an array in one line.
namespace Blehostd.Json

def decimal (n : Int) : Text :=
  let digits :=
    if n = 0 then [48] else (Nat.digits 10 n.natAbs).reverse.map fun d => UInt8.ofNat (48 + d)
  if n < 0 then 45 :: digits else digits

-- '"' and '\' and the five control characters with a letter take two
-- characters, the other control characters are written as \u00XX.
def escape (c : UInt8) : Text :=
  if c = 34 ∨ c = 92 then [92, c]
  else if c = 8 then ascii "\\b"
  else if c = 9 then ascii "\\t"
  else if c = 10 then ascii "\\n"
  else if c = 12 then ascii "\\f"
  else if c = 13 then ascii "\\r"
  else if c < 32 then
    ascii (if c < 16 then "\\u000" else "\\u001") ++
      [if c % 16 < 10 then 48 + c % 16 else 87 + c % 16]
  else [c]

def quote (text : Text) : Text :=
  34 :: text.flatMap escape ++ [34]

def tabs (depth : Nat) : Text :=
  List.replicate depth 9

mutual

def layout (depth : Nat) : Json → Text
  | .null => ascii "null"
  | .false => ascii "false"
  | .true => ascii "true"
  | .number n => decimal n
  | .string text => quote text
  | .array items => ascii "[" ++ layoutItems (depth + 1) items ++ ascii "]"
  | .object members => ascii "\x7b\n" ++ layoutMembers (depth + 1) members ++ tabs depth ++ ascii "\x7d"

def layoutItems (depth : Nat) : List Json → Text
  | [] => []
  | item :: rest =>
      layout depth item ++ (if rest.isEmpty then [] else ascii ", ") ++ layoutItems depth rest

def layoutMembers (depth : Nat) : List (Text × Json) → Text
  | [] => []
  | (key, item) :: rest =>
      tabs depth ++ quote key ++ ascii ":\t" ++ layout depth item ++
        ascii (if rest.isEmpty then "\n" else ",\n") ++ layoutMembers depth rest

end

end Blehostd.Json
