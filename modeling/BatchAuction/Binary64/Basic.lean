/-!
# Finite doubles

The finite numbers of the 64-bit floating point format, kept as exact dyadic
fractions. Every operation computes the exact result and rounds it once, to the
nearest double and to the even one of two that are equally near.
-/

set_option autoImplicit false

namespace BatchAuction

/-- The exponent of the smallest positive double. -/
def Binary64.minExponent : Int := -1074

/-- The number `significand * 2 ^ exponent`, or its negation. Zero keeps its
sign. -/
structure Binary64 where
  negative : Bool
  significand : Nat
  exponent : Int
  minExponent_le : Binary64.minExponent ≤ exponent
deriving DecidableEq, Repr

namespace Binary64

/-- The exponent of the largest finite doubles. -/
def maxExponent : Int := 971

def precision : Nat := 53

def zero (negative : Bool) : Binary64 := ⟨negative, 0, minExponent, Int.le_refl _⟩

/-- Whether this is zero, of either sign. -/
def isZero (x : Binary64) : Bool := x.significand == 0

/-- The same magnitude with the other sign. -/
def negate (x : Binary64) : Binary64 := { x with negative := !x.negative }

/-- The integer nearest to a fraction; a half goes to the even neighbour. -/
def roundHalfEven (numerator denominator : Nat) : Nat :=
  let quotient := numerator / denominator
  let rest := numerator % denominator
  if 2 * rest < denominator then quotient
  else if denominator < 2 * rest then quotient + 1
  else quotient + quotient % 2

/-- A fraction measured in units of `2 ^ exponent`. -/
def inUnits (numerator denominator : Nat) (exponent : Int) : Nat × Nat :=
  if exponent < 0 then (numerator <<< (-exponent).toNat, denominator)
  else (numerator, denominator <<< exponent.toNat)

/-- The exponent at which a positive fraction has 53 bits before its binary
point, but never one below the smallest. -/
def exponentOf (numerator denominator : Nat) : Int :=
  let least := max ((numerator.log2 : Int) - denominator.log2 - precision) minExponent
  let (scaled, unit) := inUnits numerator denominator least
  if scaled / unit < 1 <<< precision then least else least + 1

theorem minExponent_le_exponentOf (numerator denominator : Nat) :
    minExponent ≤ exponentOf numerator denominator := by
  unfold exponentOf
  dsimp only
  split <;> omega

/-- The double nearest to a fraction; nothing where it would be infinite. -/
def ofRatio? (negative : Bool) (numerator denominator : Nat) : Option Binary64 :=
  if numerator = 0 then some (zero negative)
  else
    let exponent := exponentOf numerator denominator
    have bounded : minExponent ≤ exponent := minExponent_le_exponentOf numerator denominator
    let (scaled, unit) := inUnits numerator denominator exponent
    let significand := roundHalfEven scaled unit
    let rounded : Binary64 :=
      if significand = 1 <<< precision then
        ⟨negative, 1 <<< (precision - 1), exponent + 1, Int.le_add_one bounded⟩
      else ⟨negative, significand, exponent, bounded⟩
    if maxExponent < rounded.exponent then none else some rounded

/-- The double nearest to a natural number; every number below `2 ^ 971` has
one. -/
def ofNat (n : Nat) : Binary64 := (ofRatio? false n 1).getD (zero false)

/-- The double nearest to an integer of moderate size. -/
def ofInt (n : Int) : Binary64 :=
  (ofRatio? (n < 0) n.natAbs 1).getD (zero (n < 0))

/-- The exact magnitude as a fraction. -/
def magnitude (x : Binary64) : Nat × Nat :=
  if x.exponent < 0 then (x.significand, 1 <<< (-x.exponent).toNat)
  else (x.significand <<< x.exponent.toNat, 1)

/-- The rounded product; nothing on overflow. -/
def mul? (x y : Binary64) : Option Binary64 :=
  let (xNum, xDen) := x.magnitude
  let (yNum, yDen) := y.magnitude
  ofRatio? (x.negative != y.negative) (xNum * yNum) (xDen * yDen)

/-- The rounded quotient by a double other than zero; nothing on overflow. -/
def div? (x y : Binary64) : Option Binary64 :=
  let (xNum, xDen) := x.magnitude
  let (yNum, yDen) := y.magnitude
  ofRatio? (x.negative != y.negative) (xNum * yDen) (xDen * yNum)

/-- The largest power of ten with a double of its own table entry. -/
def maxPowerOfTen : Nat := 308

/-- A positive double times a power of ten. Up to the largest table entry this is
one multiplication or division by the rounded power, so the last bit may differ
from the nearest double; a smaller scale is reached in several divisions. Nothing
on overflow. -/
def scaleByPowerOfTen? (x : Binary64) (power : Int) : Option Binary64 :=
  if _inTable : power.natAbs ≤ maxPowerOfTen then
    if 0 ≤ power then x.mul? (ofNat (Nat.pow 10 power.toNat))
    else x.div? (ofNat (Nat.pow 10 power.natAbs))
  else if x.isZero then some x
  else if _large : 0 ≤ power then none
  else do
    let reduced ← x.div? (ofNat (Nat.pow 10 maxPowerOfTen))
    scaleByPowerOfTen? reduced (power + maxPowerOfTen)
termination_by (-power).toNat
decreasing_by simp only [maxPowerOfTen] at *; omega

end Binary64

end BatchAuction
