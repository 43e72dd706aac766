import Logline.Decimal.Shortest
import Logline.Text.Bytes
/-!
# Decimal layouts

How the digits of a floating point number are laid out as text. Two layouts are in use: the one of JSON
documents, and the plain one of diagnostic texts, which has no exponent.
-/

namespace Logline.Decimal

open Text

/-- The choices of a layout. -/
structure Layout where
  /-- The decimal exponents of the first digit that are written without an exponent. -/
  positional : Int → Bool
  /-- What follows the digits of an integer. -/
  integerEnd : List Char
  /-- Whether the larger of two equally near decimals is taken, given the smaller one. -/
  tieUp : Nat → Bool

/-- JSON documents: positional from `1e-5` to below `1e16`, with `.0` after an integer; a tie goes to
the even digit. -/
def Layout.json : Layout where
  positional e := -5 ≤ e && e < 16
  integerEnd := ['.', '0']
  tieUp below := below % 2 == 1

/-- Diagnostic texts: always positional, integers without a point; a tie goes up. -/
def Layout.plain : Layout where
  positional _ := true
  integerEnd := []
  tieUp _ := true

/-- Digits without an exponent. `point` is the number of digits before the decimal point. -/
def positionalChars (layout : Layout) (digits : List Char) (point : Int) : List Char :=
  if point ≤ 0 then
    '0' :: '.' :: (List.replicate (-point).toNat '0' ++ digits)
  else if digits.length ≤ point.toNat then
    digits ++ List.replicate (point.toNat - digits.length) '0' ++ layout.integerEnd
  else
    digits.take point.toNat ++ '.' :: digits.drop point.toNat

/-- Digits with an exponent, one of them before the decimal point. -/
def exponentChars (digits : List Char) (exponent : Int) : List Char :=
  let mantissa := match digits with
    | d :: (e :: rest) => d :: '.' :: e :: rest
    | ds => ds
  mantissa ++ 'e' :: (if exponent < 0 then '-' else '+') :: decimal exponent.natAbs

/-- A positive decimal in a layout. -/
def Scientific.chars (layout : Layout) (d : Scientific) : List Char :=
  let digits := decimal d.digits
  let first := d.exponent + digits.length - 1
  if layout.positional first then positionalChars layout digits (first + 1)
  else exponentChars digits first

/-- The minus sign of a negative number. -/
def signChars (x : Binary64) : List Char := if x.isNegative then ['-'] else []

/-- A finite floating point number in a layout. -/
def chars (layout : Layout) (x : Binary64) : List Char :=
  match shortest? layout.tieUp x with
  | some d => signChars x ++ d.chars layout
  | none => signChars x ++ '0' :: layout.integerEnd

/-- Any floating point number in the plain layout. -/
def plainChars (x : Binary64) : List Char :=
  if x.isNaN then "NaN".toList
  else if x.isFinite then chars .plain x
  else signChars x ++ "inf".toList

end Logline.Decimal
