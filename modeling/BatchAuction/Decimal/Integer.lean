import BatchAuction.Decimal.Natural

/-!
# Lenient integer text

Identifiers may be written as decimal integers with an optional sign and leading
zeros. Digits are taken from the left, and the first one that is foreign or takes
the value out of range decides the error.
-/

set_option autoImplicit false

namespace BatchAuction.Decimal

/-- Why a text is not an integer of the wanted range. -/
inductive IntegerError where
  | empty
  | invalidDigit
  | tooLarge
  | tooSmall
deriving DecidableEq, Repr

/-- What a reader of the error is told. -/
def IntegerError.message : IntegerError → String
  | .empty => "cannot parse integer from empty string"
  | .invalidDigit => "invalid digit found in string"
  | .tooLarge => "number too large to fit in target type"
  | .tooSmall => "number too small to fit in target type"

/-- Takes digits as long as the value stays within a limit. -/
def takeDigits (limit : Nat) (excess : IntegerError) :
    List Char → Nat → Except IntegerError Nat
  | [], value => .ok value
  | c :: rest, value =>
      if !isDigit c then .error .invalidDigit
      else if limit < value * 10 + digitValue c then .error excess
      else takeDigits limit excess rest (value * 10 + digitValue c)

/-- Reads an unsigned integer of at most `limit`. -/
def parseUnsigned (limit : Nat) (s : String) : Except IntegerError Nat :=
  match s.toList with
  | [] => .error .empty
  | ['+'] => .error .invalidDigit
  | '+' :: digits => takeDigits limit .tooLarge digits 0
  | digits => takeDigits limit .tooLarge digits 0

/-- Reads an integer between `-(limit + 1)` and `limit`. -/
def parseSigned (limit : Nat) (s : String) : Except IntegerError Int :=
  match s.toList with
  | [] => .error .empty
  | ['+'] | ['-'] => .error .invalidDigit
  | '+' :: digits => (takeDigits limit .tooLarge digits 0).map Int.ofNat
  | '-' :: digits => (takeDigits (limit + 1) .tooSmall digits 0).map fun n => -(n : Int)
  | digits => (takeDigits limit .tooLarge digits 0).map Int.ofNat

end BatchAuction.Decimal
