import BatchAuction.Hex
import BatchAuction.Text.Utf8
import BatchAuction.Wire.Codec

/-!
# Query strings

A query string is a sequence of names and values in which a plus sign stands for a
space and any byte may be written as a percent sign with two hex digits. Bytes that
are no text are replaced.
-/

set_option autoImplicit false

namespace BatchAuction.Http.Query

/-- The byte of an ASCII character. -/
def byteOf (c : Char) : UInt8 := UInt8.ofNat c.toNat

/-- The value of a byte that is a hex digit. -/
def digitValue? (byte : UInt8) : Option Nat := Hex.digitValue? (Char.ofNat byte.toNat)

/-- Replaces percent signs that are followed by two hex digits. -/
def percentDecode : List UInt8 → List UInt8
  | first :: high :: low :: rest =>
      match if first = byteOf '%' then digitValue? high else none, digitValue? low with
      | some h, some l => UInt8.ofNat (h * 16 + l) :: percentDecode rest
      | _, _ => first :: percentDecode (high :: low :: rest)
  | first :: rest => first :: percentDecode rest
  | [] => []

/-- A name or a value as text. -/
def component (bytes : List UInt8) : String :=
  Text.Utf8.toStringLossy <| percentDecode <|
    bytes.map fun byte => if byte = byteOf '+' then byteOf ' ' else byte

/-- The name and the value of a piece between two ampersands. -/
def pair (piece : List UInt8) : String × String :=
  let (name, rest) := piece.span (· ≠ byteOf '=')
  (component name, component rest.tail)

/-- The names and values of a query string. Empty pieces are passed over. -/
def parse (bytes : List UInt8) : List (String × String) :=
  ((bytes.splitOn (byteOf '&')).filter fun piece => !piece.isEmpty).map pair

/-- Reads a record whose members are all texts. -/
def decode {α : Type} (fields : Wire.Fields α α) (bytes : List UInt8) : Except Wire.Error α :=
  fields.readObject .text {
    entries := (parse bytes).map fun entry => (entry.1, .text (.ok entry.2))
    keyOnly := none
    tail := none }

/-- Why a query string is refused, as text. -/
def render (error : Wire.Error) : String :=
  "Failed to deserialize query string: " ++
    (if error.path.isEmpty then error.message else error.location ++ ": " ++ error.message)

end BatchAuction.Http.Query
