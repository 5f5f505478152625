import BatchAuction.Binary64.Basic
import BatchAuction.Decimal.Natural

/-!
# Shortest text of a double

A double is written with the fewest significant digits that still read back as
it, and of those with the digits nearest to its exact value. Values from `1e-5`
up to `1e16` are written positionally and always show a point; others carry a
signed exponent.
-/

set_option autoImplicit false

namespace BatchAuction.Binary64

/-- The numbers that round to a double lie between two bounds, which belong to
them exactly when the significand is even. All three are counted in quarters of
the double's last place; below a power of two the neighbours are closer. -/
structure Interval where
  lower : Nat
  value : Nat
  upper : Nat
  closed : Bool
  exponent : Int

/-- The interval of a double other than zero. -/
def interval (x : Binary64) : Interval :=
  let m := x.significand
  let narrow := m = 1 <<< (precision - 1) ∧ minExponent < x.exponent
  { lower := if narrow then 4 * m - 1 else 4 * m - 2
    value := 4 * m
    upper := 4 * m + 2
    closed := m % 2 = 0
    exponent := x.exponent - 2 }

/-- The number of digits before the decimal point of a positive fraction; for a
fraction below one tenth it is negative. -/
def decimalPointGuess (numerator denominator : Nat) : (fuel : Nat) → (point : Int) → Int
  | 0, point => point
  | fuel + 1, point =>
      if denominator ≤ numerator * 10 then point
      else decimalPointGuess (numerator * 10) denominator fuel (point - 1)

/-- The place of the decimal point: a positive fraction lies between
`10 ^ (point - 1)` and `10 ^ point`. -/
def decimalPoint (numerator denominator : Nat) : Int :=
  if denominator ≤ numerator then ((Decimal.digits (numerator / denominator)).length : Int)
  else decimalPointGuess numerator denominator 400 0

/-- The number `digits * 10 ^ unit`. -/
structure Digits where
  digits : Nat
  unit : Int
deriving DecidableEq, Repr

/-- The points of the decimal grid with the given unit next to the value, if they
lie in the interval; of two the nearer one, and of two equally near the even
one. -/
def onGrid? (bounds : Interval) (unit : Int) : Option Nat :=
  let scale := fun n : Nat =>
    let n := if bounds.exponent < 0 then n else n <<< bounds.exponent.toNat
    if unit < 0 then n * Nat.pow 10 (-unit).toNat else n
  let step :=
    (if bounds.exponent < 0 then 1 <<< (-bounds.exponent).toNat else 1) *
      (if unit < 0 then 1 else Nat.pow 10 unit.toNat)
  let lower := scale bounds.lower
  let value := scale bounds.value
  let upper := scale bounds.upper
  let inside := fun point : Nat =>
    if bounds.closed then lower ≤ point * step && point * step ≤ upper
    else lower < point * step && point * step < upper
  let below := value / step
  let above := below + 1
  let toBelow := value - below * step
  let toAbove := above * step - value
  match inside below, inside above with
  | true, true =>
      if toBelow < toAbove then some below
      else if toAbove < toBelow then some above
      else some (below + below % 2)
  | true, false => some below
  | false, true => some above
  | false, false => none

/-- The first of the grids with 1, 2, … 17 digits that has a point in the
interval. A point that has carried into a new place is counted in that place. -/
def shortestFrom (bounds : Interval) (point : Int) : (tries : Nat) → (count : Nat) → Digits
  | 0, _ => ⟨0, point⟩
  | tries + 1, count =>
      match onGrid? bounds (point - count) with
      | some digits =>
          if digits = Nat.pow 10 count then ⟨Nat.pow 10 (count - 1), point - count + 1⟩
          else ⟨digits, point - count⟩
      | none => shortestFrom bounds point tries (count + 1)

/-- The digits of a positive double. -/
def shortestDigits (x : Binary64) : Digits :=
  let (numerator, denominator) := x.magnitude
  shortestFrom x.interval (decimalPoint numerator denominator) 17 1

/-- Positional notation starts above this place of the decimal point. -/
def positionalAbove : Int := -5

/-- Positional notation ends with this place of the decimal point. -/
def positionalUpTo : Int := 16

/-- The text of a magnitude with the given digits. -/
def renderDigits (digits : List Char) (unit : Int) : List Char :=
  let point : Int := unit + digits.length
  if positionalAbove < point ∧ point ≤ positionalUpTo then
    if 0 ≤ unit then digits ++ List.replicate unit.toNat '0' ++ ['.', '0']
    else if 0 < point then
      digits.take point.toNat ++ '.' :: digits.drop point.toNat
    else '0' :: '.' :: List.replicate (-point).toNat '0' ++ digits
  else
    let mantissa :=
      match digits with
      | first :: second :: rest => first :: '.' :: second :: rest
      | _ => digits
    let exponent := point - 1
    mantissa ++ ['e', if exponent < 0 then '-' else '+'] ++ Decimal.digits exponent.natAbs

def print (x : Binary64) : String :=
  let text :=
    if x.isZero then ['0', '.', '0']
    else
      let shortest := x.shortestDigits
      renderDigits (Decimal.digits shortest.digits) shortest.unit
  String.ofList (if x.negative then '-' :: text else text)

end BatchAuction.Binary64
