import Logline.Decimal.Binary64
/-!
# Shortest decimals

The shortest decimal of a floating point number is the one with the fewest digits that lies in the
interval of reals rounding to the number. On every decimal grid the number has two neighbours; the
coarsest grid with a neighbour in the interval gives the digits. Of two such neighbours the nearer is
taken, and a tie is left to the caller.
-/

namespace Logline.Decimal

/-- A positive decimal, `digits * 10 ^ exponent`. -/
structure Scientific where
  digits : Nat
  exponent : Int
  deriving DecidableEq, Repr

/-- A number and the ends of the interval that rounds to it, as multiples of a common unit. -/
structure Interval where
  low : Nat
  value : Nat
  high : Nat
  /-- Whether the ends belong to the interval. -/
  closed : Bool

/-- Whether an interval holds a multiple of the unit. -/
def Interval.contains (i : Interval) (n : Nat) : Bool :=
  if i.closed then i.low ≤ n && n ≤ i.high else i.low < n && n < i.high

/-- The interval of a finite number, in quarters of the least positive number. Below a power of two the
numbers are twice as dense as above it. -/
def Interval.ofBinary64 (x : Binary64) : Interval :=
  let unit := twoTo x.scale
  { low := (if x.fraction = 0 && 1 < x.exponentField then 4 * x.significand - 1
      else 4 * x.significand - 2) * unit
    value := 4 * x.significand * unit
    high := (4 * x.significand + 2) * unit
    closed := x.significand % 2 = 0 }

/-- An interval in units that are `n` times smaller. -/
def Interval.scaled (i : Interval) (n : Nat) : Interval :=
  { low := i.low * n, value := i.value * n, high := i.high * n, closed := i.closed }

/-- The multiple of `step` in the interval that is nearest to its value, divided by `step`. In a tie
`tieUp` decides. -/
def Interval.nearest? (i : Interval) (step : Nat) (tieUp : Nat → Bool) : Option Nat :=
  let below := i.value / step
  let above := below + 1
  let isBelow := 0 < below && i.contains (below * step)
  let isAbove := i.contains (above * step)
  let rest := i.value % step
  if isBelow && isAbove then
    some (if 2 * rest < step || (2 * rest == step && !tieUp below) then below else above)
  else if isBelow then some below
  else if isAbove then some above
  else none

/-- The decimal on the grid of multiples of `10 ^ exponent`, if the interval holds one. The interval is
in quarters of `2 ^ -1074`. -/
def onGrid? (i : Interval) (tieUp : Nat → Bool) (exponent : Int) : Option Scientific :=
  let digits? :=
    if 0 ≤ exponent then i.nearest? (twoTo 1076 * tenTo exponent.toNat) tieUp
    else (i.scaled (tenTo (-exponent).toNat)).nearest? (twoTo 1076) tieUp
  digits?.map fun digits => ⟨digits, exponent⟩

/-- The shortest decimal of the magnitude of a finite number; a zero has none. -/
def shortest? (tieUp : Nat → Bool) (x : Binary64) : Option Scientific :=
  if x.isZero then none
  else (List.range 640).findSome? fun k => onGrid? (.ofBinary64 x) tieUp (309 - Int.ofNat k)

end Logline.Decimal
