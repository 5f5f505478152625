import BatchAuction.Binary64.Basic
import BatchAuction.Clock.Calendar
import BatchAuction.Toml.Lexeme

/-!
# TOML scalars

Integers, booleans, real numbers and points in time. An integer fits 64 bits with
its sign. Underscores may stand between two digits.
-/

set_option autoImplicit false

namespace BatchAuction.Toml

/-- The digits of a group of digits. An underscore stands between digits only. -/
def ungrouped (isDigit : Char → Bool) : List Char → Option (List Char)
  | [] => none
  | [c] => if isDigit c then some [c] else none
  | c :: '_' :: rest => if isDigit c then (ungrouped isDigit rest).map (c :: ·) else none
  | c :: rest => if isDigit c then (ungrouped isDigit rest).map (c :: ·) else none

/-- Decimal digits without a superfluous zero in front. -/
def wholeDigits (cs : List Char) : Option (List Char) := do
  match ← ungrouped Decimal.isDigit cs with
  | '0' :: _ :: _ => none
  | digits => some digits

/-- The number that digits of a base denote, if all of them belong to it. -/
def numberOf? (base : Nat) (digits : List Char) : Option Nat :=
  digits.foldlM
    (fun value digit => do
      let worth ← Hex.digitValue? digit
      if worth < base then some (value * base + worth) else none)
    0

/-- An integer, if it fits 64 bits with its sign. -/
def signedWord? (value : Int) : Option Int :=
  if Int64.minValue.toInt ≤ value ∧ value ≤ Int64.maxValue.toInt then some value else none

/-- The sign in front of a numeral, and the rest. -/
def signed : List Char → Bool × List Char
  | '-' :: rest => (true, rest)
  | '+' :: rest => (false, rest)
  | cs => (false, cs)

def decimalInteger? (cs : List Char) : Option Int := do
  let (negative, cs) := signed cs
  let value ← numberOf? 10 (← wholeDigits cs)
  signedWord? (if negative then -(value : Int) else value)

/-- An integer in a base other than ten. -/
def basedInteger? (base : Nat) (cs : List Char) : Option Int := do
  let digits ← ungrouped (fun c => (Hex.digitValue? c).any (· < base)) cs
  signedWord? (← numberOf? base digits)

def integer? : List Char → Option Int
  | '0' :: 'x' :: rest => basedInteger? 16 rest
  | '0' :: 'o' :: rest => basedInteger? 8 rest
  | '0' :: 'b' :: rest => basedInteger? 2 rest
  | cs => decimalInteger? cs

/-- The exponent that characters denote, with its mark in front. -/
def exponent? : List Char → Option Int
  | c :: rest =>
      if c = 'e' || c = 'E' then do
        let (negative, cs) := signed rest
        let value := Decimal.ofDigits (← ungrouped Decimal.isDigit cs)
        some (if negative then -(value : Int) else value)
      else none
  | [] => none

/-- A real number without its sign: its digits and the power of ten they are counted
in. -/
structure Numeral where
  digits : List Char
  power : Int
deriving DecidableEq, Repr

/-- A real number, which has a fraction or an exponent. -/
def numeral? (cs : List Char) : Option Numeral := do
  let inNumber (c : Char) : Bool := Decimal.isDigit c || c = '_'
  let (whole, rest) := cs.span inNumber
  let whole ← wholeDigits whole
  match rest with
  | '.' :: rest =>
      let (fraction, rest) := rest.span inNumber
      let fraction ← ungrouped Decimal.isDigit fraction
      let power ← if rest.isEmpty then some 0 else exponent? rest
      return ⟨whole ++ fraction, power - fraction.length⟩
  | rest => return ⟨whole, ← exponent? rest⟩

/-- Whether a real number is too great for a double. Only one with 309 digits before
its point has to be compared with the greatest double. -/
def Numeral.isInfinite (numeral : Numeral) : Bool :=
  let digits := numeral.digits.dropWhile (· = '0')
  let size := digits.length + numeral.power
  !digits.isEmpty &&
    (309 < size ||
      (size = 309 &&
        (Binary64.ofRatio? false
          (Decimal.ofDigits digits * Nat.pow 10 numeral.power.toNat)
          (Nat.pow 10 (-numeral.power).toNat)).isNone))

/-- Whether characters are a real number: a fraction or an exponent is there, or it
is infinite or no number. One that is too great for a double must be negative. -/
def isReal (cs : List Char) : Bool :=
  let (negative, cs) := signed cs
  cs = ['i', 'n', 'f'] || cs = ['n', 'a', 'n'] ||
    (numeral? cs).any fun numeral => negative || !numeral.isInfinite

/-- A number of fixed width within bounds, and the rest. -/
def fixed? (width low high : Nat) (cs : List Char) : Option (Nat × List Char) :=
  let digits := cs.take width
  if digits.length = width && digits.all Decimal.isDigit then
    let value := Decimal.ofDigits digits
    if low ≤ value ∧ value ≤ high then some (value, cs.drop width) else none
  else none

/-- What follows a mark. -/
def after? (c : Char) : List Char → Option (List Char)
  | d :: rest => if d = c then some rest else none
  | [] => none

/-- What follows a date. -/
def afterDate? (cs : List Char) : Option (List Char) := do
  let (year, cs) ← fixed? 4 0 9999 cs
  let (month, cs) ← fixed? 2 1 12 (← after? '-' cs)
  let (day, cs) ← fixed? 2 1 31 (← after? '-' cs)
  if day ≤ Clock.daysInMonth year month then some cs else none

/-- What follows a time of day. -/
def afterTime? (cs : List Char) : Option (List Char) := do
  let (_, cs) ← fixed? 2 0 23 cs
  let (_, cs) ← fixed? 2 0 59 (← after? ':' cs)
  let (_, cs) ← fixed? 2 0 60 (← after? ':' cs)
  match cs with
  | '.' :: c :: rest => if Decimal.isDigit c then some (rest.dropWhile Decimal.isDigit) else none
  | '.' :: [] => none
  | cs => some cs

/-- Whether characters are an offset from universal time, or nothing. -/
def isOffset : List Char → Bool
  | [] => true
  | ['Z'] => true
  | ['z'] => true
  | c :: rest =>
      (c = '+' || c = '-') &&
        (do
          let (_, cs) ← fixed? 2 0 23 rest
          let (_, cs) ← fixed? 2 0 59 (← after? ':' cs)
          if cs.isEmpty then some () else none).isSome

def isDate (cs : List Char) : Bool := afterDate? cs = some []

/-- Whether characters are a time of day, perhaps with an offset. -/
def isZonedTime (cs : List Char) : Bool := (afterTime? cs).any isOffset

/-- Whether characters are a point in time: a date, a time of day, or both. -/
def isTime (cs : List Char) : Bool :=
  isDate cs || afterTime? cs = some [] ||
    match afterDate? cs with
    | some (c :: rest) => (c = 'T' || c = 't') && isZonedTime rest
    | _ => false

/-- A scalar of the given characters. -/
def scalarOf? (cs : List Char) : Option Value :=
  if cs = ['t', 'r', 'u', 'e'] || cs = ['f', 'a', 'l', 's', 'e'] || isReal cs || isTime cs then
    some .scalar
  else (integer? cs).map .integer

/-- A character that may stand in a scalar. -/
def isScalarChar (c : Char) : Bool :=
  c.isAlphanum || c = '_' || c = '+' || c = '-' || c = '.' || c = ':'

/-- Reads a scalar. Between a date and a time a space may stand, which otherwise
ends a scalar. -/
def scalar : Reader Value := fun cs =>
  let (first, rest) := cs.span isScalarChar
  match rest with
  | ' ' :: c :: others =>
      if isDate first && Decimal.isDigit c then
        let (second, rest) := (c :: others).span isScalarChar
        if isZonedTime second then some (.scalar, rest) else none
      else (scalarOf? first).map fun value => (value, rest)
  | rest => (scalarOf? first).map fun value => (value, rest)

end BatchAuction.Toml
