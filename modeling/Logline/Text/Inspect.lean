import Logline.Text.Bytes
import Logline.Text.Graphic
/-!
# Diagnostic texts

How a text is shown in diagnostics, where it must be told apart from the text around it: between double
quotes, with escapes for the quote, the backslash and the common control characters, and with every
other character that is not graphic written as `\\u{…}` with its number.
-/

namespace Logline.Text

/-- One character of a diagnostic text. -/
def inspectChar (c : Char) : List Char :=
  if c == '\x00' then ['\\', '0']
  else if c == '\t' then ['\\', 't']
  else if c == '\r' then ['\\', 'r']
  else if c == '\n' then ['\\', 'n']
  else if c == '"' then ['\\', '"']
  else if c == '\\' then ['\\', '\\']
  else if isGraphic c then [c]
  else ['\\', 'u', '\x7b'] ++ Nat.toDigits 16 c.toNat ++ ['\x7d']

/-- A text for diagnostics. -/
def inspect (s : String) : String :=
  String.ofList ('"' :: (s.toList.flatMap inspectChar ++ ['"']))

/-- Texts for diagnostics, as a list in brackets. -/
def inspectList (items : List String) : String := "[" ++ ", ".intercalate items ++ "]"

/-- A record for diagnostics: its name, and its fields in order. -/
def inspectRecord (name : String) (fields : List (String × String)) : String :=
  name ++ " \x7b " ++ ", ".intercalate (fields.map fun f => f.1 ++ ": " ++ f.2) ++ " \x7d"

/-- A record for diagnostics that shows only some of its fields. -/
def inspectPartialRecord (name : String) (fields : List (String × String)) : String :=
  name ++ " \x7b " ++ ", ".intercalate (fields.map fun f => f.1 ++ ": " ++ f.2) ++ ", .. \x7d"

end Logline.Text
