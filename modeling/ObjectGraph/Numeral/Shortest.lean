/-! # Fewest digits

A finite number of double precision stands for every real that rounds to it. Among the decimals of
that interval the chosen one has the fewest digits, and among those it is the nearest to the number;
of two that are equally near it is the larger. All arithmetic is exact, on natural numbers.
-/
namespace ObjectGraph

/-- A decimal `digits * 10 ^ place`. -/
structure Decimal where
  digits : Nat
  place : Int
  deriving DecidableEq

/-- The reals that round to one positive number: `low`, `middle` and `high` count the same unit
`2 ^ unit`, the number itself lies at `middle`, and the two ends belong to the interval when it is
closed. -/
structure RoundingInterval where
  low : Nat
  middle : Nat
  high : Nat
  unit : Int
  isClosed : Bool

namespace RoundingInterval

/-- The interval of `significand * 2 ^ exponent`. A quarter of the last place is the unit; below a
power of two the neighbours stand twice as close, and an even significand attracts the midpoints. -/
def ofScaled (significand : Nat) (exponent : Int) (isNarrowBelow : Bool) : RoundingInterval where
  low := 4 * significand - (if isNarrowBelow then 1 else 2)
  middle := 4 * significand
  high := 4 * significand + 2
  unit := exponent - 2
  isClosed := significand % 2 == 0

/-- Factors that bring a count of binary units and a count of decimal units to one scale:
`a * 2 ^ unit` against `c * 10 ^ place` is `a * factor.1` against `c * factor.2`. -/
def factors (unit place : Int) : Nat × Nat :=
  (Nat.pow 2 unit.toNat * Nat.pow 10 (-place).toNat,
    Nat.pow 10 place.toNat * Nat.pow 2 (-unit).toNat)

/-- Whether `c * 10 ^ place` rounds to the number. -/
def contains (interval : RoundingInterval) (place : Int) (c : Nat) : Bool :=
  let (binary, decimal) := factors interval.unit place
  let point := c * decimal
  if interval.isClosed then
    decide (interval.low * binary ≤ point) && decide (point ≤ interval.high * binary)
  else
    decide (interval.low * binary < point) && decide (point < interval.high * binary)

/-- The last point of the grid `10 ^ place` that is not above the number. -/
def floor (interval : RoundingInterval) (place : Int) : Nat :=
  let (binary, decimal) := factors interval.unit place
  interval.middle * binary / decimal

/-- Whether the point `c` of the grid is strictly nearer to the number than `c + 1`. -/
def isNearer (interval : RoundingInterval) (place : Int) (c : Nat) : Bool :=
  let (binary, decimal) := factors interval.unit place
  decide (2 * (interval.middle * binary) < (2 * c + 1) * decimal)

/-- The point of the grid `10 ^ place` that rounds to the number and is nearest to it, if any. -/
def pointAt? (interval : RoundingInterval) (place : Int) : Option Nat :=
  let c := interval.floor place
  match interval.contains place c, interval.contains place (c + 1) with
  | false, false => none
  | true, false => some c
  | false, true => some (c + 1)
  | true, true => some (if interval.isNearer place c then c else c + 1)

/-- No positive number of double precision is as small as `10 ^ -345`. -/
def lowestPlace : Int := -345

/-- The place of the leading digit of the number. -/
def leadingPlace (interval : RoundingInterval) : Int :=
  (Nat.toDigits 10 (interval.floor lowestPlace)).length + lowestPlace - 1

/-- On a grid of seventeen digits every number has a point. -/
def mostDigits : Nat := 17

/-- The number itself, with all its digits. -/
def exact (interval : RoundingInterval) : Decimal :=
  ⟨interval.middle * Nat.pow 2 interval.unit.toNat * Nat.pow 5 (-interval.unit).toNat,
    min interval.unit 0⟩

/-- The nearest point on the first grid with one, from the place of the leading digit down. -/
def shortest (interval : RoundingInterval) : Decimal :=
  let leading := interval.leadingPlace
  let places := (List.range mostDigits).map fun (n : Nat) => leading - (n : Int)
  let found := places.findSome? fun place => (interval.pointAt? place).map (Decimal.mk · place)
  found.getD interval.exact

end RoundingInterval

end ObjectGraph
