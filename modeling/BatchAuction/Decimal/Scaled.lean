import BatchAuction.Binary64.Basic
import BatchAuction.Decimal.Integer

/-!
# Scaled decimals

A scaled decimal is an integer and the number of its digits that stand after the
point. The scale is part of what is written: `0.30` stays `0.30`. Very small and
very large magnitudes are written with an exponent.
-/

set_option autoImplicit false

namespace BatchAuction.Decimal

/-- The greatest scale that can be held. -/
def Scaled.maxScale : Int := Int64.maxValue.toInt

/-- The least scale that can be held. -/
def Scaled.minScale : Int := Int64.minValue.toInt

/-- The number `unscaled / 10 ^ scale`. -/
structure Scaled where
  unscaled : Int
  scale : Int
  minScale_le : Scaled.minScale ≤ scale
  le_maxScale : scale ≤ Scaled.maxScale
deriving DecidableEq, Repr

namespace Scaled

/-- Why a text is not a scaled decimal. -/
inductive ParseError where
  | empty
  | integer (error : IntegerError)
  | exponentOverflow (text : String)
deriving DecidableEq, Repr

/-- What a reader of the error is told. -/
def ParseError.message : ParseError → String
  | .empty => "Failed to parse empty string"
  | .integer error => error.message
  | .exponentOverflow text => "Exponent overflow when parsing '" ++ text ++ "'"

/-- The greatest exponent that may be written. -/
def maxExponent : Nat := Nat.pow 2 127 - 1

/-- Reads digits in which underscores after the first digit are ignored. -/
def parseDigits : List Char → Except IntegerError Nat
  | [] => .error .empty
  | '_' :: _ => .error .invalidDigit
  | cs =>
      let digits := cs.filter fun c => c ≠ '_'
      if digits.all isDigit then .ok (ofDigits digits) else .error .invalidDigit

/-- Reads digits after an optional plus sign. -/
def parseMagnitude : List Char → Except IntegerError Nat
  | '+' :: '+' :: _ => .error .invalidDigit
  | '+' :: rest => parseDigits rest
  | cs => parseDigits cs

/-- Reads digits after an optional sign. -/
def parseUnscaled : List Char → Except IntegerError Int
  | '-' :: '+' :: _ => .error .invalidDigit
  | '-' :: rest => (parseMagnitude rest).map fun n => -(n : Int)
  | cs => (parseMagnitude cs).map Int.ofNat

/-- Splits at the first character of a class and drops that character. -/
def splitAtFirst (p : Char → Bool) : List Char → List Char × Option (List Char)
  | [] => ([], none)
  | c :: rest =>
      if p c then ([], some rest)
      else
        let (before, after) := splitAtFirst p rest
        (c :: before, after)

/-- Reads a decimal with an optional sign, point and exponent. The exponent is
read first; a point at the very end is dropped. -/
def parse (s : String) : Except ParseError Scaled := do
  let (base, exponentText) := splitAtFirst (fun c => c = 'e' || c = 'E') s.toList
  let exponent ← match exponentText with
    | none => pure 0
    | some text => (parseSigned maxExponent (String.ofList text)).mapError .integer
  if base.isEmpty then throw .empty
  let (lead, trail) := splitAtFirst (fun c => c = '.') base
  let trail := trail.getD []
  let places := (trail.filter fun c => c ≠ '_').length
  let scale := (places : Int) - exponent
  if held : minScale ≤ scale ∧ scale ≤ maxScale then
    let unscaled ← (parseUnscaled (lead ++ trail)).mapError .integer
    return ⟨unscaled, scale, held.1, held.2⟩
  else throw (.exponentOverflow s)

def ofInt (value : Int) : Scaled := ⟨value, 0, by decide, by decide⟩

/-- Divides by two while the number is even, at most so often. -/
def halve : (times : Nat) → (value : Nat) → Nat × Nat
  | 0, value => (value, 0)
  | times + 1, value =>
      if value % 2 = 0 then halve times (value / 2) else (value, times + 1)

theorem halve_places_le (times value : Nat) : (halve times value).2 ≤ times := by
  fun_induction halve times value <;> omega

/-- No double has more places than the smallest one. -/
theorem halve_places_le_maxScale (x : Binary64) :
    ((halve (-x.exponent).toNat x.significand).2 : Int) ≤ maxScale := by
  have places := halve_places_le (-x.exponent).toNat x.significand
  have bounded : (-1074 : Int) ≤ x.exponent := x.minExponent_le
  have room : (1074 : Int) ≤ maxScale := by decide
  omega

/-- The exact decimal expansion of a double. -/
def ofBinary64 (x : Binary64) : Scaled :=
  let sign := fun n : Nat => if x.negative then -(n : Int) else n
  if x.isZero then ofInt 0
  else if 0 ≤ x.exponent then ofInt (sign (x.significand <<< x.exponent.toNat))
  else
    let halved := halve (-x.exponent).toNat x.significand
    ⟨sign (halved.1 * Nat.pow 5 halved.2), halved.2,
      Int.le_trans (by decide) (Int.natCast_nonneg _), halve_places_le_maxScale x⟩

/-- More zeros than this right after the point call for an exponent. -/
def maxLeadingZeros : Int := 5

/-- More implied zeros than this before the point call for an exponent. -/
def maxTrailingZeros : Int := 15

def signedExponent (exponent : Int) : List Char :=
  (if exponent < 0 then '-' else '+') :: digits exponent.natAbs

/-- The text of a magnitude other than zero. -/
def magnitudeChars (unscaled : Nat) (scale : Int) : List Char :=
  let ds := digits unscaled
  let length : Int := ds.length
  if maxLeadingZeros < scale - length then
    let mantissa := match ds with
      | first :: second :: rest => first :: '.' :: second :: rest
      | _ => ds
    mantissa ++ 'E' :: signedExponent (length - scale - 1)
  else if maxTrailingZeros < -scale then ds ++ 'e' :: signedExponent (-scale)
  else if scale ≤ 0 then ds ++ List.replicate (-scale).toNat '0'
  else if scale < length then
    let whole := (length - scale).toNat
    ds.take whole ++ '.' :: ds.drop whole
  else '0' :: '.' :: List.replicate (scale - length).toNat '0' ++ ds

/-- The text of a scaled decimal. Every zero is written alike. -/
def print (value : Scaled) : String :=
  if value.unscaled = 0 then "0"
  else
    let chars := magnitudeChars value.unscaled.natAbs value.scale
    String.ofList (if value.unscaled < 0 then '-' :: chars else chars)

end Scaled

end BatchAuction.Decimal
