import BatchAuction.Amount

/-!
# Layout of call data

A sequence of components is laid out as heads followed by tails. A component of
fixed size stands in its head. Any other component stands in its tail, and its
head is a word that tells how far the tail is from the start of the sequence.
-/

set_option autoImplicit false

namespace BatchAuction.Abi

/-- The size of a word in bytes. -/
def wordSize : Nat := 32

def word (value : Nat) : List UInt8 := bigEndianBytes wordSize value

def wordAt? (bytes : List UInt8) (position : Nat) : Option Nat :=
  let found := (bytes.drop position).take wordSize
  if found.length = wordSize then some (bigEndian found) else none

/-- A component: its bytes, and whether they stand in the tail. -/
structure Part where
  dynamic : Bool
  bytes : List UInt8
deriving DecidableEq, Repr

/-- The size of a component's head. -/
def Part.headSize (part : Part) : Nat := if part.dynamic then wordSize else part.bytes.length

/-- The bytes of a component that stand in the tail. -/
def Part.tail (part : Part) : List UInt8 := if part.dynamic then part.bytes else []

def headsSize : List Part → Nat
  | [] => 0
  | part :: rest => part.headSize + headsSize rest

/-- The heads, when the next tail stands at an offset. -/
def heads : (offset : Nat) → List Part → List UInt8
  | _, [] => []
  | offset, part :: rest =>
      (if part.dynamic then word offset else part.bytes) ++
        heads (offset + part.tail.length) rest

def tails (parts : List Part) : List UInt8 := parts.flatMap Part.tail

def assemble (parts : List Part) : List UInt8 := heads (headsSize parts) parts ++ tails parts

/-- Zeros that fill up the last word of some bytes. -/
def padding (length : Nat) : List UInt8 :=
  List.replicate ((wordSize - length % wordSize) % wordSize) 0

end BatchAuction.Abi
