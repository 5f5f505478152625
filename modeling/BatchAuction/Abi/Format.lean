import BatchAuction.Abi.Layout

/-!
# Formats of call data

A format holds both directions for the values of one type. Reading starts at the
front of some bytes and ignores what follows the value, so formats combine to
formats of lists and records.
-/

set_option autoImplicit false

namespace BatchAuction.Abi

structure Format (α : Type) where
  /-- Whether a value stands in the tail of a sequence. -/
  dynamic : Bool
  /-- The size of a value that does not. -/
  size : Nat
  encode : α → List UInt8
  decode : List UInt8 → Option α

namespace Format

variable {α : Type}

/-- The size of a value's head in a sequence. -/
def headSize (format : Format α) : Nat := if format.dynamic then wordSize else format.size

/-- A value as a component of a sequence. -/
def part (format : Format α) (value : α) : Part := ⟨format.dynamic, format.encode value⟩

/-- Reads the component of a sequence whose head is at a position. -/
def read (format : Format α) (sequence : List UInt8) (position : Nat) : Option α :=
  if format.dynamic then
    (wordAt? sequence position).bind fun offset => format.decode (sequence.drop offset)
  else format.decode (sequence.drop position)

/-- Reads so many components, whose heads begin at a position. -/
def readMany (format : Format α) (sequence : List UInt8) : (count position : Nat) →
    Option (List α)
  | 0, _ => some []
  | count + 1, position => do
      let value ← format.read sequence position
      let values ← format.readMany sequence count (position + format.headSize)
      return value :: values

/-- A word of some range of numbers. -/
def ofWord (encode : α → Nat) (decode : Nat → Option α) : Format α where
  dynamic := false
  size := wordSize
  encode value := word (encode value)
  decode bytes := (wordAt? bytes 0).bind decode

def amount : Format Amount := ofWord (·.value) Amount.ofNat?

def unsigned32 : Format UInt32 :=
  ofWord UInt32.toNat fun value => if value < UInt32.size then some (UInt32.ofNat value) else none

def address : Format Address :=
  ofWord FixedBytes.toNat fun value =>
    if value < byteWeight 20 then some (FixedBytes.ofNat 20 value) else none

def digest : Format Digest := ofWord FixedBytes.toNat fun value => some (FixedBytes.ofNat 32 value)

/-- Bytes of any number: their number, then the bytes, filled up with zeros. Anything
else in their place is refused. -/
def bytes : Format (List UInt8) where
  dynamic := true
  size := 0
  encode value := word value.length ++ (value ++ padding value.length)
  decode found :=
    (wordAt? found 0).bind fun length =>
      let value := (found.drop wordSize).take length
      let filler := (found.drop (wordSize + length)).take (padding length).length
      if value.length = length ∧ filler = padding length then some value else none

/-- A list: the number of its items, then the sequence of them. -/
def list (format : Format α) : Format (List α) where
  dynamic := true
  size := 0
  encode values := word values.length ++ assemble (values.map format.part)
  decode found :=
    (wordAt? found 0).bind fun count => format.readMany (found.drop wordSize) count 0

end Format

/-- Members of a record of type `σ`, read together as a value of type `α`. -/
structure Members (σ α : Type) where
  dynamic : Bool
  size : Nat
  parts : σ → List Part
  /-- Reads the members of a sequence, whose heads begin at a position. -/
  read : (sequence : List UInt8) → (position : Nat) → Option α

namespace Members

variable {σ α β : Type}

def const (value : α) : Members σ α := ⟨false, 0, fun _ => [], fun _ _ => some value⟩

def append (first : Members σ (α → β)) (second : Members σ α) : Members σ β where
  dynamic := first.dynamic || second.dynamic
  size := first.size + second.size
  parts record := first.parts record ++ second.parts record
  read sequence position := do
    let f ← first.read sequence position
    let x ← second.read sequence (position + first.size)
    return f x

instance : Pure (Members σ) := ⟨const⟩

instance : Seq (Members σ) := ⟨fun first second => append first (second ())⟩

def member (format : Format α) (get : σ → α) : Members σ α where
  dynamic := format.dynamic
  size := format.headSize
  parts record := [format.part (get record)]
  read := format.read

/-- A record: the sequence of its members. -/
def format (members : Members α α) : Format α where
  dynamic := members.dynamic
  size := members.size
  encode record := assemble (members.parts record)
  decode bytes := members.read bytes 0

end Members

end BatchAuction.Abi
