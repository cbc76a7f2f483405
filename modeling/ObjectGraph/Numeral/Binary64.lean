/-! # Numbers of double precision

A number is its word of 64 bits: a sign, eleven bits of exponent and fifty-two of fraction. Two
numbers are equal as words when they have the same bits; they compare equal by value when neither is
a NaN and they have the same bits or are both zero.
-/
namespace ObjectGraph

structure Binary64 where
  bits : UInt64
  deriving DecidableEq

namespace Binary64

def isNegative (x : Binary64) : Bool := decide (1 <<< 63 ≤ x.bits.toNat)

/-- The eleven bits after the sign. -/
def exponentField (x : Binary64) : Nat := (x.bits.toNat >>> 52) % (1 <<< 11)

def fraction (x : Binary64) : Nat := x.bits.toNat % (1 <<< 52)

/-- The exponent field of the infinities and the NaNs. -/
def specialExponent : Nat := (1 <<< 11) - 1

def isNaN (x : Binary64) : Bool := x.exponentField == specialExponent && x.fraction != 0

def isInfinite (x : Binary64) : Bool := x.exponentField == specialExponent && x.fraction == 0

def isZero (x : Binary64) : Bool := x.exponentField == 0 && x.fraction == 0

def zero : Binary64 := ⟨0⟩

/-- The magnitude of a finite number counts units of `2 ^ binaryExponent`. -/
def binaryExponent (x : Binary64) : Int := (Nat.max x.exponentField 1 : Int) - 1075

/-- How many units the magnitude of a finite number counts: outside the lowest exponent a leading
bit stands before the fraction. -/
def significand (x : Binary64) : Nat :=
  if x.exponentField = 0 then x.fraction else (1 <<< 52) + x.fraction

/-- Comparison by value: a NaN equals nothing, and the two zeros equal each other. -/
instance : BEq Binary64 where
  beq x y := !x.isNaN && !y.isNaN && (decide (x = y) || (x.isZero && y.isZero))

theorem beq_def (x y : Binary64) :
    (x == y) = (!x.isNaN && !y.isNaN && (decide (x = y) || (x.isZero && y.isZero))) := rfl

theorem beq_self_eq (x : Binary64) : (x == x) = !x.isNaN := by
  simp [beq_def]

end Binary64

end ObjectGraph
