import Logline.Json.Printer
import Logline.Text.Quoted
import Logline.Text.Inspect
/-!
# Reading JSON from left to right

The parts that every reader of JSON documents uses: blanks, literals, numbers and strings, and the error
that says what a value is when another kind was wanted. A reader takes the characters that are left and
returns what it read with the characters after it. Errors arise in reading order, and the first one ends
the reading.

An integer beyond 64 bits becomes a floating point number. The significand of a floating point number
keeps the digits that fit into 64 bits; it is scaled by one power of ten, rounding at each step.
-/

namespace Logline.Json

open Text

/-- Why a document could not be read. -/
inductive ReadError where
  /-- The document is well-formed so far, but holds something else than was wanted. -/
  | data (message : String)
  /-- The document is not well-formed. -/
  | malformed
  /-- The document ends too early. -/
  | truncated
  deriving DecidableEq, Repr

/-- A reader of a part of a document. -/
abbrev Reader (α : Type) := List Char → Except ReadError (α × List Char)

/-! ### Blanks and literals -/

/-- The blanks of JSON. -/
def isBlank (c : Char) : Bool := c == ' ' || c == '\n' || c == '\t' || c == '\r'

/-- What follows the blanks. -/
def skipBlanks (cs : List Char) : List Char := cs.dropWhile isBlank

/-- Reads given characters. -/
def readLiteral : List Char → Reader Unit
  | [], cs => .ok ((), cs)
  | _ :: _, [] => .error .truncated
  | e :: es, c :: cs => if c = e then readLiteral es cs else .error .malformed

/-! ### Strings -/

/-- The characters that are left, and a proof that a part was taken off the front of `cs`. -/
abbrev Shorter (cs : List Char) := { rest : List Char // rest.length < cs.length }

/-- Reads four hexadecimal digits. -/
def readUnit (cs : List Char) : Except ReadError (Nat × Shorter cs) :=
  match cs with
  | a :: b :: c :: d :: rest =>
    match hexNumber? [a, b, c, d] with
    | some n => .ok (n, ⟨rest, by simp only [List.length_cons]; omega⟩)
    | none => .error .malformed
  -- an escape that has its four octets, though not four characters, is not cut off by the end
  | short => if (encode short).length < 4 then .error .truncated else .error .malformed

/-- Reads the second half of a character written as two units, after the first half. -/
def readLowUnit (high : Nat) (cs : List Char) : Except ReadError (Char × Shorter cs) :=
  match cs with
  | '\\' :: 'u' :: rest =>
    match readUnit rest with
    | .ok (low, left) =>
      if 0xDC00 ≤ low ∧ low ≤ 0xDFFF then
        .ok (Char.ofNat ((high - 0xD800) * 0x400 + (low - 0xDC00) + 0x10000),
          ⟨left.1, by have := left.2; simp only [List.length_cons]; omega⟩)
      else .error .malformed
    | .error e => .error e
  | [] => .error .truncated
  | ['\\'] => .error .truncated
  | _ => .error .malformed

/-- Reads an escape after its backslash. -/
def readEscape (cs : List Char) : Except ReadError (Char × Shorter cs) :=
  match cs with
  | [] => .error .truncated
  | 'u' :: rest =>
    match readUnit rest with
    | .error e => .error e
    | .ok (n, left) =>
      if 0xDC00 ≤ n ∧ n ≤ 0xDFFF then .error .malformed
      else if 0xD800 ≤ n ∧ n ≤ 0xDBFF then
        match readLowUnit n left.1 with
        | .error e => .error e
        | .ok (c, left') =>
          .ok (c, ⟨left'.1, by have := left.2; have := left'.2; simp only [List.length_cons]; omega⟩)
      else .ok (Char.ofNat n, ⟨left.1, by have := left.2; simp only [List.length_cons]; omega⟩)
  | letter :: rest =>
    let character? : Option Char := match letter with
      | '"' => some '"'
      | '\\' => some '\\'
      | '/' => some '/'
      | 'b' => some '\x08'
      | 'f' => some '\x0c'
      | 'n' => some '\n'
      | 'r' => some '\r'
      | 't' => some '\t'
      | _ => none
    match character? with
    | some c => .ok (c, ⟨rest, by simp⟩)
    | none => .error .malformed

/-- Reads the rest of a string after its opening quote. -/
def readString (cs : List Char) : Except ReadError (List Char × List Char) :=
  match cs with
  | [] => .error .truncated
  | '"' :: rest => .ok ([], rest)
  | '\\' :: rest =>
    match readEscape rest with
    | .error e => .error e
    | .ok (c, left) =>
      match readString left.1 with
      | .error e => .error e
      | .ok (text, after) => .ok (c :: text, after)
  | c :: rest =>
    if c < ' ' then .error .malformed
    else match readString rest with
      | .error e => .error e
      | .ok (text, after) => .ok (c :: text, after)
termination_by cs.length
decreasing_by
  · have := left.2; simp only [List.length_cons]; omega
  · simp

/-! ### Numbers -/

/-- A number as it is read: an integer of 64 bits, or a floating point number. -/
inductive Number where
  | natural (n : Nat)
  | negative (i : Int)
  | float (x : Binary64)
  deriving Repr

/-- The digits at the front, as numbers, and what follows them. -/
def digits (cs : List Char) : List Nat × List Char :=
  ((cs.takeWhile Char.isDigit).map fun c => c.toNat - '0'.toNat, cs.dropWhile Char.isDigit)

/-- Extends a significand by digits until it would no longer fit into 64 bits. Returns it with the digits
that are left. -/
def absorb : Nat → List Nat → Nat × List Nat
  | s, [] => (s, [])
  | s, d :: ds => if s * 10 + d < UInt64.size then absorb (s * 10 + d) ds else (s, d :: ds)

/-- A power of ten, rounded. -/
def powerOfTen (n : Nat) : Binary64 := Binary64.ofNat (tenTo n)

/-- `significand * 10 ^ exponent`, rounded at each step; `none` if it is too large. -/
def scaled (significand : Nat) (exponent : Int) : Option Binary64 :=
  let x := Binary64.ofNat significand
  if x.isZero then some x
  else if 0 ≤ exponent then
    if exponent ≤ 308 then
      let y := x.mul (powerOfTen exponent.toNat)
      if y.isFinite then some y else none
    else none
  else if -308 ≤ exponent then some (x.div (powerOfTen (-exponent).toNat))
  else if -616 ≤ exponent then
    some ((x.div (powerOfTen 308)).div (powerOfTen (-exponent - 308).toNat))
  else some (Binary64.ofNat 0)

/-- A floating point number from its parts. -/
def finishFloat (negative : Bool) (significand : Nat) (exponent : Int) (rest : List Char) :
    Except ReadError (Number × List Char) :=
  match scaled significand exponent with
  | some x => .ok (.float (if negative then x.negated else x), rest)
  | none => .error .malformed

/-- Reads the digits of an exponent. -/
def readExponentDigits (negative : Bool) (significand : Nat) (exponent : Int) (downward : Bool) :
    Reader Number := fun cs =>
  match digits cs with
  | ([], []) => .error .truncated
  | ([], _) => .error .malformed
  | (ds, rest) =>
    let e : Nat := ds.foldl (fun n d => n * 10 + d) 0
    finishFloat negative significand (if downward then exponent - e else exponent + e) rest

/-- Reads an exponent after its letter. -/
def readExponent (negative : Bool) (significand : Nat) (exponent : Int) : Reader Number
  | '+' :: cs => readExponentDigits negative significand exponent false cs
  | '-' :: cs => readExponentDigits negative significand exponent true cs
  | cs => readExponentDigits negative significand exponent false cs

/-- Finishes a floating point number after its digits: an exponent may follow. -/
def readFloatEnd (negative : Bool) (significand : Nat) (exponent : Int) : Reader Number
  | 'e' :: cs => readExponent negative significand exponent cs
  | 'E' :: cs => readExponent negative significand exponent cs
  | cs => finishFloat negative significand exponent cs

/-- Reads the digits after the decimal point. -/
def readFraction (negative : Bool) (significand : Nat) (exponent : Int) : Reader Number := fun cs =>
  match digits cs with
  | ([], []) => .error .truncated
  | ([], _) => .error .malformed
  | (ds, rest) =>
    let (s, left) := absorb significand ds
    readFloatEnd negative s (exponent - (ds.length - left.length : Nat)) rest

/-- An integer that fits into 64 bits, with its sign, as a number. Minus zero is a floating point number,
and so is a negative integer below the least one of 64 bits. -/
def integerNumber (negative : Bool) (n : Nat) : Number :=
  if !negative then .natural n
  else if n = 0 ∨ twoTo 63 < n then .float (Binary64.ofNat n).negated
  else .negative (-n)

/-- Reads what may follow the integer digits. `dropped` is the number of digits that did not fit. -/
def readAfterInteger (negative : Bool) (significand dropped : Nat) : Reader Number
  | '.' :: cs => readFraction negative significand dropped cs
  | cs =>
    match cs with
    | 'e' :: rest => readExponent negative significand dropped rest
    | 'E' :: rest => readExponent negative significand dropped rest
    | _ =>
      if dropped = 0 then .ok (integerNumber negative significand, cs)
      else finishFloat negative significand dropped cs

/-- Reads a number after its sign. A number does not start with a zero that a digit follows. -/
def readNumber (negative : Bool) : Reader Number := fun cs =>
  match digits cs with
  | ([], []) => .error .truncated
  | ([], _) => .error .malformed
  | ([0], rest) => readAfterInteger negative 0 0 rest
  | (0 :: _, _) => .error .malformed
  | (ds, rest) =>
    let (s, left) := absorb 0 ds
    readAfterInteger negative s left.length rest

/-! ### Values of another kind than wanted -/

/-- A number as error texts name it. -/
def Number.describe : Number → String
  | .natural n => "integer `" ++ toString n ++ "`"
  | .negative i => "integer `" ++ toString i ++ "`"
  | .float x => "floating point `" ++ String.ofList (floatChars x) ++ "`"

/-- A value of another kind than wanted. -/
def wrongKind (found wanted : String) : ReadError :=
  .data ("invalid type: " ++ found ++ ", expected " ++ wanted)

/-- The error for a value that is not what was wanted. A value that is not well-formed is reported as
such; of an array or an object only the first character is read. -/
def mismatch (wanted : String) (cs : List Char) : ReadError :=
  let expecting (literal : List Char) (found : String) (rest : List Char) :=
    match readLiteral literal rest with
    | .ok _ => wrongKind found wanted
    | .error e => e
  let number (negative : Bool) (rest : List Char) :=
    match readNumber negative rest with
    | .ok (n, _) => wrongKind n.describe wanted
    | .error e => e
  match cs with
  | 'n' :: rest => expecting ['u', 'l', 'l'] "null" rest
  | 't' :: rest => expecting ['r', 'u', 'e'] "boolean `true`" rest
  | 'f' :: rest => expecting ['a', 'l', 's', 'e'] "boolean `false`" rest
  | '-' :: rest => number true rest
  | '"' :: rest =>
    match readString rest with
    | .ok (text, _) => wrongKind ("string " ++ inspect (String.ofList text)) wanted
    | .error e => e
  | '[' :: _ => wrongKind "sequence" wanted
  | '\x7b' :: _ => wrongKind "map" wanted
  | c :: rest => if c.isDigit then number false (c :: rest) else .malformed
  | [] => .truncated

/-! ### Values of a wanted kind -/

/-- Reads a boolean. -/
def readBool : Reader Bool := fun cs =>
  match skipBlanks cs with
  | [] => .error .truncated
  | 't' :: rest => (readLiteral ['r', 'u', 'e'] rest).map fun r => (true, r.2)
  | 'f' :: rest => (readLiteral ['a', 'l', 's', 'e'] rest).map fun r => (false, r.2)
  | other => .error (mismatch "a boolean" other)

/-- Reads a string. -/
def readText : Reader String := fun cs =>
  match skipBlanks cs with
  | [] => .error .truncated
  | '"' :: rest => (readString rest).map fun r => (String.ofList r.1, r.2)
  | other => .error (mismatch "a string" other)

/-- Takes a number as a natural number of 32 bits. -/
def Number.toUInt32 : Number → Except ReadError UInt32
  | .natural n =>
    if n < UInt32.size then .ok (UInt32.ofNat n)
    else .error (.data ("invalid value: " ++ (Number.natural n).describe ++ ", expected u32"))
  | .negative i => .error (.data ("invalid value: " ++ (Number.negative i).describe ++ ", expected u32"))
  | .float x => .error (wrongKind (Number.float x).describe "u32")

/-- Reads a natural number of 32 bits. -/
def readUInt32 : Reader UInt32 := fun cs =>
  let number (negative : Bool) (rest : List Char) : Except ReadError (UInt32 × List Char) :=
    match readNumber negative rest with
    | .ok (n, left) => n.toUInt32.map fun v => (v, left)
    | .error e => .error e
  match skipBlanks cs with
  | [] => .error .truncated
  | '-' :: rest => number true rest
  | c :: rest => if c.isDigit then number false (c :: rest) else .error (mismatch "u32" (c :: rest))

/-- Ends a document: only blanks may be left. -/
def finish {α : Type} (result : Except ReadError (α × List Char)) : Except ReadError α :=
  match result with
  | .error e => .error e
  | .ok (a, rest) => if skipBlanks rest = [] then .ok a else .error .malformed

end Logline.Json
