import Logline.Text.Bytes
import Logline.Text.CharClass
/-!
# Quoted texts

A quoted text stands between double quotes on a single line. Printable characters stand for themselves;
the quote and the backslash are escaped with a backslash, control characters by their short letter where
there is one, and everything else by its number: two hexadecimal digits for ASCII, four up to `U+FFFF`,
eight above.

Beside the writer stands a reader, `readQuoted`, which takes a quoted text off the front of a line.
-/

namespace Logline.Text

/-! ### Writing -/

/-- The letter of a short escape. -/
def shortEscape : Char → Option Char
  | '"' => some '"'
  | '\\' => some '\\'
  | '\x07' => some 'a'
  | '\x08' => some 'b'
  | '\x0c' => some 'f'
  | '\n' => some 'n'
  | '\r' => some 'r'
  | '\t' => some 't'
  | '\x0b' => some 'v'
  | _ => none

/-- The escape of a character by its number. -/
def numberEscape (c : Char) : List Char :=
  if c < ' ' || c == '\x7f' then '\\' :: 'x' :: hexadecimal 2 c.toNat
  else if c.toNat < 0x10000 then '\\' :: 'u' :: hexadecimal 4 c.toNat
  else '\\' :: 'U' :: hexadecimal 8 c.toNat

/-- One character inside a quoted text. -/
def quotedChar (c : Char) : List Char :=
  match shortEscape c with
  | some letter => ['\\', letter]
  | none => if isPrintable c then [c] else numberEscape c

/-- The characters of a quoted text, quotes included. -/
def quotedChars (cs : List Char) : List Char := '"' :: (cs.flatMap quotedChar ++ ['"'])

/-- A quoted text in UTF-8. -/
def quoted (s : String) : Bytes := encode (quotedChars s.toList)

/-! ### Reading -/

/-- The value of a hexadecimal digit of either case. -/
def hexValue? (c : Char) : Option Nat :=
  if '0' ≤ c ∧ c ≤ '9' then some (c.toNat - '0'.toNat)
  else if 'a' ≤ c ∧ c ≤ 'f' then some (c.toNat - 'a'.toNat + 10)
  else if 'A' ≤ c ∧ c ≤ 'F' then some (c.toNat - 'A'.toNat + 10)
  else none

/-- The number that hexadecimal digits denote, most significant digit first. -/
def hexNumber? (digits : List Char) : Option Nat :=
  digits.foldlM (fun n c => (hexValue? c).map (16 * n + ·)) 0

/-- The character with a given number, if there is one. -/
def charOfNumber? (n : Nat) : Option Char :=
  if h : n.isValidChar then some (Char.ofNatAux n h) else none

/-- The character of a short escape, given its letter. -/
def shortUnescape : Char → Option Char
  | '"' => some '"'
  | '\\' => some '\\'
  | 'a' => some '\x07'
  | 'b' => some '\x08'
  | 'f' => some '\x0c'
  | 'n' => some '\n'
  | 'r' => some '\r'
  | 't' => some '\t'
  | 'v' => some '\x0b'
  | _ => none

/-- Reads what follows the opening quote, up to and including the first quote that is not escaped, and
returns the text and what follows it. -/
def readQuotedBody : List Char → Option (List Char × List Char)
  | '"' :: rest => some ([], rest)
  | '\\' :: 'x' :: a :: b :: rest => do
    let c ← (hexNumber? [a, b]).bind charOfNumber?
    let (cs, rest) ← readQuotedBody rest
    pure (c :: cs, rest)
  | '\\' :: 'u' :: a :: b :: c :: d :: rest => do
    let c ← (hexNumber? [a, b, c, d]).bind charOfNumber?
    let (cs, rest) ← readQuotedBody rest
    pure (c :: cs, rest)
  | '\\' :: 'U' :: a :: b :: c :: d :: e :: f :: g :: h :: rest => do
    let c ← (hexNumber? [a, b, c, d, e, f, g, h]).bind charOfNumber?
    let (cs, rest) ← readQuotedBody rest
    pure (c :: cs, rest)
  | '\\' :: letter :: rest => do
    let c ← shortUnescape letter
    let (cs, rest) ← readQuotedBody rest
    pure (c :: cs, rest)
  | ['\\'] => none
  | c :: rest => do
    let (cs, rest) ← readQuotedBody rest
    pure (c :: cs, rest)
  | [] => none

/-- Takes a quoted text off the front. -/
def readQuoted : List Char → Option (List Char × List Char)
  | '"' :: rest => readQuotedBody rest
  | _ => none

end Logline.Text
