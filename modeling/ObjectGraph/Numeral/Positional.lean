import ObjectGraph.Numeral.Binary64
import ObjectGraph.Numeral.Shortest

/-! # Numbers as text

A number is written with its fewest digits in positional notation, whatever its size: zeros fill the
places up to the point, no point follows a whole number and no exponent is used. The sign of a zero
is kept and that of a NaN is not.
-/
namespace ObjectGraph

/-- The digits of a decimal before and after the point. -/
def Decimal.split (d : Decimal) : List Char × List Char :=
  let written := Nat.toDigits 10 d.digits ++ List.replicate d.place.toNat '0'
  let behind := (-d.place).toNat
  let padded := List.replicate (behind + 1 - written.length) '0' ++ written
  padded.splitAt (padded.length - behind)

/-- A decimal in positional notation, without zeros at the end of its fraction. -/
def Decimal.positional (d : Decimal) : List Char :=
  let (whole, fraction) := d.split
  match (fraction.reverse.dropWhile (· == '0')).reverse with
  | [] => whole
  | kept => whole ++ '.' :: kept

namespace Binary64

/-- The reals that round to the magnitude of a finite number. -/
def interval (x : Binary64) : RoundingInterval :=
  .ofScaled x.significand x.binaryExponent (x.fraction == 0 && decide (1 < x.exponentField))

/-- The magnitude of a number that is not a NaN, as text. -/
def magnitudeText (x : Binary64) : List Char :=
  if x.isInfinite then ['i', 'n', 'f']
  else if x.isZero then ['0']
  else x.interval.shortest.positional

/-- The number as it stands in generated code. -/
def text (x : Binary64) : String :=
  if x.isNaN then "NaN"
  else String.ofList (if x.isNegative then '-' :: x.magnitudeText else x.magnitudeText)

end Binary64

end ObjectGraph
