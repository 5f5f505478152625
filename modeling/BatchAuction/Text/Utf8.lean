/-!
# UTF-8

Writing is by the size of the code point. Reading keeps a place for everything
that is not a character: each longest piece that could have begun a character,
and each byte that cannot begin one, counts as one gap. A strict reader refuses
gaps, a lenient one shows the replacement character for each.
-/

set_option autoImplicit false

namespace BatchAuction.Text.Utf8

/-- The bytes of a code point. -/
def encodePoint (point : Nat) : List UInt8 :=
  if point < 0x80 then [UInt8.ofNat point]
  else if point < 0x800 then
    [UInt8.ofNat (0xC0 + point / 64), UInt8.ofNat (0x80 + point % 64)]
  else if point < 0x10000 then
    [UInt8.ofNat (0xE0 + point / 4096), UInt8.ofNat (0x80 + point / 64 % 64),
      UInt8.ofNat (0x80 + point % 64)]
  else
    [UInt8.ofNat (0xF0 + point / 262144), UInt8.ofNat (0x80 + point / 4096 % 64),
      UInt8.ofNat (0x80 + point / 64 % 64), UInt8.ofNat (0x80 + point % 64)]

def encode (cs : List Char) : List UInt8 := cs.flatMap fun c => encodePoint c.toNat

def ofString (s : String) : List UInt8 := encode s.toList

/-- A character that still misses continuation bytes: how many, between which
bounds the next one lies, and the bits gathered so far. -/
structure Pending where
  missing : Nat
  lower : Nat
  upper : Nat
  bits : Nat
deriving DecidableEq, Repr

/-- What a byte between characters begins. -/
inductive Lead where
  | character (point : Nat)
  | pending (begun : Pending)
  | nothing
deriving DecidableEq, Repr

/-- The bounds on the second byte leave out overlong forms, surrogates and points
above the last one. -/
def lead (byte : Nat) : Lead :=
  if byte < 0x80 then .character byte
  else if byte < 0xC2 then .nothing
  else if byte < 0xE0 then .pending ⟨1, 0x80, 0xBF, byte - 0xC0⟩
  else if byte = 0xE0 then .pending ⟨2, 0xA0, 0xBF, 0⟩
  else if byte = 0xED then .pending ⟨2, 0x80, 0x9F, 0xD⟩
  else if byte < 0xF0 then .pending ⟨2, 0x80, 0xBF, byte - 0xE0⟩
  else if byte = 0xF0 then .pending ⟨3, 0x90, 0xBF, 0⟩
  else if byte < 0xF4 then .pending ⟨3, 0x80, 0xBF, byte - 0xF0⟩
  else if byte = 0xF4 then .pending ⟨3, 0x80, 0x8F, 4⟩
  else .nothing

/-- What a begun character becomes with one more byte. -/
def Pending.extend? (begun : Pending) (byte : Nat) : Option Lead :=
  if begun.lower ≤ byte ∧ byte ≤ begun.upper then
    let bits := begun.bits * 64 + (byte - 0x80)
    if begun.missing ≤ 1 then some (.character bits)
    else some (.pending ⟨begun.missing - 1, 0x80, 0xBF, bits⟩)
  else none

/-- The characters of some bytes, with `none` for each gap. -/
def pieces : Option Pending → List UInt8 → List (Option Char)
  | none, [] => []
  | some _, [] => [none]
  | begun, byte :: rest =>
      let fresh := match lead byte.toNat with
        | .character point => some (Char.ofNat point) :: pieces none rest
        | .pending next => pieces (some next) rest
        | .nothing => none :: pieces none rest
      match begun with
      | none => fresh
      | some pending =>
          match pending.extend? byte.toNat with
          | some (.character point) => some (Char.ofNat point) :: pieces none rest
          | some (.pending next) => pieces (some next) rest
          | some .nothing | none => none :: fresh

/-- The characters of some bytes, unless there is a gap. -/
def decode? (bytes : List UInt8) : Option (List Char) := (pieces none bytes).mapM id

/-- The text of some bytes, unless there is a gap. -/
def toString? (bytes : List UInt8) : Option String := (decode? bytes).map String.ofList

/-- The character shown for a gap. -/
def replacement : Char := Char.ofNat 0xFFFD

/-- The text of some bytes with every gap shown. -/
def toStringLossy (bytes : List UInt8) : String :=
  String.ofList ((pieces none bytes).map fun piece => piece.getD replacement)

end BatchAuction.Text.Utf8
