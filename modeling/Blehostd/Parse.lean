import Blehostd.Os
import Blehostd.Json
import Mathlib.Data.Vector.Basic

namespace Blehostd

-- The result codes of the decoders other than 0.
inductive ErrCode where
  | badToken
  | einval
  | enoent
  | erange
  | hsEinval
deriving DecidableEq, Repr

def ErrCode.code : ErrCode → Int
  | .badToken => -1
  | .einval => SYS_EINVAL
  | .enoent => SYS_ENOENT
  | .erange => SYS_ERANGE
  | .hsEinval => BLE_HS_EINVAL

theorem ErrCode.code_ne_zero (e : ErrCode) : e.code ≠ 0 := by
  cases e <;> decide

-- A result code, with none for 0.
abbrev Rc := Option ErrCode

def ULONG_BITS : Nat := 64

def ULONG_MAX : Nat := 2 ^ ULONG_BITS - 1

def isspace (c : UInt8) : Bool :=
  c = 32 || (9 ≤ c && c ≤ 13)

def hexDigit (c : UInt8) : Option Nat :=
  if 48 ≤ c ∧ c ≤ 57 then some (c.toNat - 48)
  else if 97 ≤ c ∧ c ≤ 102 then some (c.toNat - 87)
  else if 65 ≤ c ∧ c ≤ 70 then some (c.toNat - 55)
  else none

def isHexDigit (c : UInt8) : Bool :=
  (hexDigit c).isSome

-- The value of the digits, in base 16.
def hexValue (digits : Text) : Nat :=
  digits.foldl (fun value c => value * 16 + (hexDigit c).getD 0) 0

-- The sign is '-' or '+'.
def skipSign : Text → Bool × Text
  | 45 :: rest => (true, rest)
  | 43 :: rest => (false, rest)
  | text => (false, text)

-- "0x" is a prefix only in front of a digit.
def skipHexPrefix (text : Text) : Text :=
  match text with
  | zero :: x :: digit :: _ =>
      if zero = 48 ∧ (x = 120 ∨ x = 88) ∧ isHexDigit digit then text.drop 2 else text
  | _ => text

-- strtoul with base 16: the value, and the text from endptr on. Without any
-- digit endptr is the start of the text.
def strtoul (text : Text) : Nat × Text :=
  let (negative, unsigned) := skipSign (text.dropWhile isspace)
  let digits := skipHexPrefix unsigned
  let value := hexValue (digits.takeWhile isHexDigit)
  if digits.takeWhile isHexDigit = [] then (0, text)
  else
    (if ULONG_MAX < value then ULONG_MAX
      else if negative then (2 ^ ULONG_BITS - value) % 2 ^ ULONG_BITS
      else value,
    digits.dropWhile isHexDigit)

-- The delimiters are ':' and '-'.
def isDelim (c : UInt8) : Bool :=
  c = 58 || c = 45

-- The tokens that the calls of strtok return: the maximal pieces without a delimiter.
def tokens (text : Text) : List Text :=
  (text.splitOnP isDelim).filter (· ≠ [])

-- The result of parse_arg_byte_stream_delim, and the bytes that it has written.
-- It sets *out_len to their number when the result is 0.
def parseTokens (sval : Text) (maxLen : Nat) : List Text → List UInt8 → Rc × List UInt8
  | [], dst => (none, dst)
  | token :: rest, dst =>
      if maxLen ≤ dst.length then (some .einval, dst)
      else
        let (ul, endptr) := strtoul token
        if sval = [] ∨ endptr ≠ [] ∨ 255 < ul then (some .badToken, dst)
        else parseTokens sval maxLen rest (dst ++ [UInt8.ofNat ul])

def parseArgByteStream (val : Text) (maxLen : Nat) : Rc × List UInt8 :=
  parseTokens val maxLen (tokens val) []

def parseArgByteStreamExactLength (val : Text) (len : Nat) : Rc × List UInt8 :=
  let (rc, bytes) := parseArgByteStream val len
  if rc ≠ none then (rc, bytes)
  else if bytes.length ≠ len then (some .einval, bytes)
  else (none, bytes)

def parseArgMac (val : Text) : Rc × List UInt8 :=
  let (rc, bytes) := parseArgByteStreamExactLength val 6
  if rc ≠ none then (rc, bytes) else (none, bytes.reverse)

end Blehostd
