import BatchAuction.Binary64.Shortest
import BatchAuction.Json.Fault

/-!
# JSON numbers

Integers of the signed or unsigned 64-bit range stay exact; every other number
becomes a double. A numeral with more digits than 64 bits can hold keeps its
leading digits and the power of ten of those it drops.
-/

set_option autoImplicit false

namespace BatchAuction.Json

/-- A number of a document. An integer read from text lies between `-2 ^ 63` and
`2 ^ 64 - 1`. -/
inductive Number where
  | integer (value : Int)
  | real (value : Binary64)
deriving DecidableEq, Repr

/-- The least integer that stays exact. -/
def Number.least : Int := Int64.minValue.toInt

/-- The greatest integer that stays exact. -/
def Number.greatest : Nat := UInt64.size - 1

/-- An integer in signed decimal notation. -/
def printInteger (value : Int) : String :=
  if value < 0 then "-" ++ Decimal.print value.natAbs else Decimal.print value.natAbs

def Number.print : Number → String
  | .integer value => printInteger value
  | .real value => value.print

/-- The parts of a numeral: digit values without the sign, the point and the
exponent mark, which are absent where the part is. -/
structure Numeral where
  negative : Bool
  whole : List Nat
  fraction : Option (List Nat)
  exponent : Option (Bool × List Nat)
deriving DecidableEq, Repr

namespace Numeral

/-- A significand that fits 64 bits and the power of ten it is counted in. -/
structure Scaled where
  significand : Nat
  power : Int
deriving DecidableEq, Repr

/-- The number that digit values denote. -/
def ofDigits (digits : List Nat) : Nat := digits.foldl (fun value digit => value * 10 + digit) 0

/-- Takes digits of the whole part while they fit; each later one only raises the
power. -/
def takeWhole : List Nat → Nat → Scaled
  | [], significand => ⟨significand, 0⟩
  | digit :: rest, significand =>
      if significand * 10 + digit ≤ Number.greatest then
        takeWhole rest (significand * 10 + digit)
      else ⟨significand, rest.length + 1⟩

/-- Takes digits of the fraction while they fit; all later ones are dropped. -/
def takeFraction : List Nat → Scaled → Scaled
  | [], scaled => scaled
  | digit :: rest, scaled =>
      if scaled.significand * 10 + digit ≤ Number.greatest then
        takeFraction rest ⟨scaled.significand * 10 + digit, scaled.power - 1⟩
      else scaled

/-- The exponent part as an integer. -/
def power (numeral : Numeral) : Int :=
  match numeral.exponent with
  | none => 0
  | some (negative, digits) =>
      if negative then -(ofDigits digits : Int) else ofDigits digits

/-- The double that a numeral denotes. -/
def toReal (numeral : Numeral) : Readable Number :=
  let scaled := takeFraction (numeral.fraction.getD []) (takeWhole numeral.whole 0)
  match (Binary64.ofNat scaled.significand).scaleByPowerOfTen? (scaled.power + numeral.power) with
  | some value => .ok (.real (if numeral.negative then value.negate else value))
  | none => .error .numberOutOfRange

/-- The number that a numeral denotes. Negative zero is a double, and so is
every integer out of range. -/
def value (numeral : Numeral) : Readable Number :=
  let whole := ofDigits numeral.whole
  if numeral.fraction.isSome || numeral.exponent.isSome then numeral.toReal
  else if numeral.negative then
    if whole = 0 || decide ((whole : Int) > -Number.least) then numeral.toReal
    else .ok (.integer (-whole))
  else if whole ≤ Number.greatest then .ok (.integer whole)
  else numeral.toReal

end Numeral

end BatchAuction.Json
