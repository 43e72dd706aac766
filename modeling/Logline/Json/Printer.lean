import Logline.Json.Basic
import Logline.Decimal.Layout
/-!
# Compact JSON

JSON documents without blanks. In strings only the quote, the backslash and the control characters below
the space are escaped; a floating point number that is not finite is written as `null`.
-/

namespace Logline.Json

open Text

/-! ### Strings -/

/-- One character inside a JSON string. -/
def stringChar (c : Char) : List Char :=
  if c == '"' then ['\\', '"']
  else if c == '\\' then ['\\', '\\']
  else if c == '\x08' then ['\\', 'b']
  else if c == '\x0c' then ['\\', 'f']
  else if c == '\n' then ['\\', 'n']
  else if c == '\r' then ['\\', 'r']
  else if c == '\t' then ['\\', 't']
  else if c < ' ' then '\\' :: 'u' :: hexadecimal 4 c.toNat
  else [c]

/-- A text as a JSON string. -/
def stringChars (s : String) : List Char := '"' :: (s.toList.flatMap stringChar ++ ['"'])

/-! ### Values -/

/-- A floating point number in JSON. -/
def floatChars (x : Binary64) : List Char :=
  if x.isFinite then Decimal.chars .json x else "null".toList

mutual

/-- A value as a compact JSON document. -/
def chars : Json → List Char
  | .null => "null".toList
  | .bool b => (if b then "true" else "false").toList
  | .integer i => signedDecimal i
  | .float x => floatChars x
  | .string s => stringChars s
  | .array items => '[' :: (itemChars items ++ [']'])
  | .object members => '\x7b' :: (memberChars members ++ ['\x7d'])

/-- The items of an array, between commas. -/
def itemChars : List Json → List Char
  | [] => []
  | [v] => chars v
  | v :: w :: rest => chars v ++ ',' :: itemChars (w :: rest)

/-- The members of an object, between commas. -/
def memberChars : List (String × Json) → List Char
  | [] => []
  | [(n, v)] => stringChars n ++ ':' :: chars v
  | (n, v) :: m :: rest => stringChars n ++ ':' :: chars v ++ ',' :: memberChars (m :: rest)

end

/-- A value as a compact JSON text. -/
def compact (v : Json) : String := String.ofList (chars v)

end Logline.Json
