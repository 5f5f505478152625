import BatchAuction.Amount
import BatchAuction.Text.Quoted

/-!
# Canonical decimal text

Amounts travel as decimal digits without sign, separator or leading zero, so
each number has exactly one text. The checks run in a fixed order: a foreign
character is named before an empty text or a leading zero.
-/

set_option autoImplicit false

namespace BatchAuction.Decimal

/-- Why a text is not a canonical decimal number. -/
inductive ParseError where
  | empty
  | leadingZero
  | invalidDigit (c : Char)
  | overflow
deriving DecidableEq, Repr

/-- What a reader of the error is told. -/
def ParseError.message : ParseError → String
  | .empty => "empty string"
  | .leadingZero => "leading zeros are not allowed"
  | .invalidDigit c =>
      "invalid character " ++ Text.quotedChar c ++ ", only decimal digits are allowed"
  | .overflow => "value does not fit into 256 bits"

/-- An ASCII digit; digits of other scripts are foreign characters. -/
def isDigit (c : Char) : Bool := '0' ≤ c && c ≤ '9'

def digitValue (c : Char) : Nat := c.toNat - 48

/-- The digit of a value below ten. -/
def digitChar (value : Nat) : Char := Char.ofNat (48 + value)

/-- The number that digits denote, the first one weighing most. -/
def ofDigits (digits : List Char) : Nat :=
  digits.foldl (fun value c => value * 10 + digitValue c) 0

/-- The digits of a number, without leading zeros. -/
def digits (n : Nat) : List Char :=
  if _small : n < 10 then [digitChar n] else digits (n / 10) ++ [digitChar (n % 10)]
termination_by n

/-- The decimal text of a number. -/
def print (n : Nat) : String := String.ofList (digits n)

/-- The digits of a canonical text, or the first reason to refuse it. -/
def validate (cs : List Char) : Except ParseError Unit :=
  match cs.find? (fun c => !isDigit c) with
  | some c => .error (.invalidDigit c)
  | none =>
      match cs with
      | [] => .error .empty
      | '0' :: _ :: _ => .error .leadingZero
      | _ => .ok ()

/-- Reads a canonical decimal number of any size. -/
def parseNatural (s : String) : Except ParseError Nat := do
  validate s.toList
  return ofDigits s.toList

/-- Takes digits one by one as long as their number fits a word. -/
def accumulate (total : Amount) : List Char → Option Amount
  | [] => some total
  | c :: rest =>
      (Amount.ofNat? (total.value * 10 + digitValue c)).bind fun total => accumulate total rest

/-- Reads a canonical decimal number that fits a word. -/
def parseAmount (s : String) : Except ParseError Amount := do
  validate s.toList
  match accumulate .zero s.toList with
  | some amount => return amount
  | none => throw .overflow

end BatchAuction.Decimal
