/-!
# Binary floating point of 64 bits

A number is its bit pattern. What the pattern means is exact arithmetic on natural numbers: a finite
number is `significand * 2 ^ (scale - 1074)`, up to sign. `ofRatio` rounds a quotient to the nearest
number, a tie to the one with the even significand; products and quotients of numbers are rounded that
way.
-/

namespace Logline

/-- A power of two. -/
def twoTo (n : Nat) : Nat := Nat.pow 2 n

/-- A power of ten. -/
def tenTo (n : Nat) : Nat := Nat.pow 10 n

/-- A binary floating point number of 64 bits, given by its bit pattern. -/
structure Binary64 where
  bits : UInt64
  deriving DecidableEq, Repr, Inhabited

namespace Binary64

/-! ### Reading a bit pattern -/

/-- The sign bit. -/
def isNegative (x : Binary64) : Bool := twoTo 63 ≤ x.bits.toNat

/-- The eleven exponent bits. -/
def exponentField (x : Binary64) : Nat := x.bits.toNat / twoTo 52 % twoTo 11

/-- The fifty-two fraction bits. -/
def fraction (x : Binary64) : Nat := x.bits.toNat % twoTo 52

/-- Neither infinite nor a NaN. -/
def isFinite (x : Binary64) : Bool := x.exponentField != 2047

/-- Not a number. -/
def isNaN (x : Binary64) : Bool := x.exponentField == 2047 && x.fraction != 0

/-- The integer whose multiple by a power of two the number is. -/
def significand (x : Binary64) : Nat :=
  if x.exponentField = 0 then x.fraction else twoTo 52 + x.fraction

/-- The exponent of two, counted from the least one, `-1074`. -/
def scale (x : Binary64) : Nat := x.exponentField - 1

/-! ### Rounding -/

/-- `num / den` rounded to an integer, a tie to the even one. -/
def roundDiv (num den : Nat) : Nat :=
  let q := num / den
  let r := num % den
  if 2 * r < den then q
  else if den < 2 * r then q + 1
  else q + q % 2

/-- The scale at which `num / den` has a significand of fifty-three bits, or the least scale. -/
def scaleFor (num den : Nat) : Nat :=
  let guess := num.log2 + 1074 - den.log2 - 52
  -- `num / den` lies strictly between two powers of two around the guess
  if num * twoTo 1074 < twoTo 52 * den * twoTo guess then guess - 1 else guess

/-- The number with the given sign, significand and scale; infinite if it is too large. -/
def pack (negative : Bool) (significand scale : Nat) : Binary64 :=
  let magnitude :=
    if significand < twoTo 52 then significand
    else if twoTo 53 ≤ significand then (scale + 2) * twoTo 52
    else (scale + 1) * twoTo 52 + (significand - twoTo 52)
  let magnitude := min magnitude (2047 * twoTo 52)
  ⟨UInt64.ofNat (if negative then twoTo 63 + magnitude else magnitude)⟩

/-- The number nearest to `num / den`, with the given sign. -/
def ofRatio (negative : Bool) (num den : Nat) : Binary64 :=
  let scale := scaleFor num den
  pack negative (roundDiv (num * twoTo 1074) (den * twoTo scale)) scale

/-- The number nearest to a natural number. -/
def ofNat (n : Nat) : Binary64 := ofRatio false n 1

/-- The magnitude of a finite number, in units of the least positive number. -/
def units (x : Binary64) : Nat := x.significand * twoTo x.scale

/-- The magnitude of a product, rounded. -/
def mul (x y : Binary64) : Binary64 := ofRatio false (x.units * y.units) (twoTo 2148)

/-- The magnitude of a quotient, rounded. -/
def div (x y : Binary64) : Binary64 := ofRatio false x.units y.units

/-- The number with its sign bit set. -/
def negated (x : Binary64) : Binary64 := ⟨x.bits ||| 0x8000000000000000⟩

/-- Whether the number is a zero, of either sign. -/
def isZero (x : Binary64) : Bool := x.exponentField == 0 && x.fraction == 0

/-! ### Narrower numbers -/

/-- A number of 32 bits, widened. Every finite one keeps its value. -/
def ofBinary32 (bits : UInt32) : Binary64 :=
  let n := bits.toNat
  let negative := twoTo 31 ≤ n
  let field := n / twoTo 23 % twoTo 8
  let fraction := n % twoTo 23
  if field = 255 then
    ⟨UInt64.ofNat ((if negative then twoTo 63 else 0) + 2047 * twoTo 52 + fraction * twoTo 29)⟩
  else
    let significand := if field = 0 then fraction else twoTo 23 + fraction
    ofRatio negative (significand * twoTo (field - 1)) (twoTo 149)

end Binary64

end Logline
