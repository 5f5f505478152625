import BatchAuction.Bytes
import BatchAuction.Decimal.Natural

/-!
# Hex text

Binary data travels as `0x` and an even number of hex digits. Both letter cases
are read, lower case is written, and an address carries no checksum.
-/

set_option autoImplicit false

namespace BatchAuction.Hex

/-- Why a text does not denote the bytes that were asked for. -/
inductive ParseError where
  | missingPrefix
  | invalidDigit (c : Char)
  | oddLength
  | invalidLength (expected actual : Nat)
deriving DecidableEq, Repr

/-- What a reader of the error is told. -/
def ParseError.message : ParseError → String
  | .missingPrefix => "missing \"0x\" prefix"
  | .invalidDigit c =>
      "invalid character " ++ Text.quotedChar c ++ ", only hex digits are allowed"
  | .oddLength => "odd number of hex digits"
  | .invalidLength expected actual =>
      "expected " ++ Decimal.print expected ++ " hex digits but got " ++ Decimal.print actual

/-- The value of a hex digit of either case. -/
def digitValue? (c : Char) : Option Nat :=
  if '0' ≤ c && c ≤ '9' then some (c.toNat - 48)
  else if 'a' ≤ c && c ≤ 'f' then some (c.toNat - 87)
  else if 'A' ≤ c && c ≤ 'F' then some (c.toNat - 55)
  else none

/-- The two digits of a byte. -/
def byteDigits (byte : UInt8) : List Char :=
  [Text.hexDigit (byte.toNat / 16), Text.hexDigit (byte.toNat % 16)]

/-- The digits of some bytes, without the prefix. -/
def digits (bytes : List UInt8) : List Char := bytes.flatMap byteDigits

def print (bytes : List UInt8) : String := String.ofList ('0' :: 'x' :: digits bytes)

/-- Reads digits in pairs; the error is the first of the checks that fails over
the whole text, so a foreign character is named even where the count is odd. -/
def bytesOfDigits : List Char → Except ParseError (List UInt8)
  | [] => .ok []
  | [c] =>
      match digitValue? c with
      | none => .error (.invalidDigit c)
      | some _ => .error .oddLength
  | high :: low :: rest =>
      match digitValue? high, digitValue? low with
      | none, _ => .error (.invalidDigit high)
      | some _, none => .error (.invalidDigit low)
      | some h, some l => (bytesOfDigits rest).map (UInt8.ofNat (h * 16 + l) :: ·)

def parseChars : List Char → Except ParseError (List UInt8)
  | '0' :: 'x' :: rest => bytesOfDigits rest
  | _ => .error .missingPrefix

def parse (s : String) : Except ParseError (List UInt8) := parseChars s.toList

/-- Reads exactly `size` bytes. -/
def parseFixed (size : Nat) (s : String) : Except ParseError (FixedBytes size) := do
  let bytes ← parse s
  if sized : bytes.length = size then
    return ⟨bytes, sized⟩
  else
    throw (.invalidLength (2 * size) (2 * bytes.length))

def parseAddress (s : String) : Except ParseError Address := parseFixed 20 s

end BatchAuction.Hex

namespace BatchAuction.FixedBytes

/-- The hex text of the bytes. -/
def print {size : Nat} (value : FixedBytes size) : String := Hex.print value.bytes

end BatchAuction.FixedBytes
