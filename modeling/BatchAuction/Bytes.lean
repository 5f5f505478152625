/-!
# Byte strings

Byte strings of a length fixed by their type, and the big-endian reading of
bytes as numbers. Addresses are ordered by the number they denote.
-/

set_option autoImplicit false

namespace BatchAuction

/-- The number that bytes denote when the first one weighs most. -/
def bigEndian (bytes : List UInt8) : Nat :=
  bytes.foldl (fun value byte => value * 256 + byte.toNat) 0

/-- What a byte weighs that so many bytes follow. -/
def byteWeight (followers : Nat) : Nat := Nat.pow 256 followers

@[simp] theorem byteWeight_zero : byteWeight 0 = 1 := rfl

theorem byteWeight_succ (followers : Nat) :
    byteWeight (followers + 1) = byteWeight followers * 256 := rfl

theorem byteWeight_pos (followers : Nat) : 0 < byteWeight followers := Nat.pow_pos (by decide)

theorem byteWeight_mono {fewer more : Nat} (le : fewer ≤ more) :
    byteWeight fewer ≤ byteWeight more := Nat.pow_le_pow_right (by decide) le

private theorem foldl_weight (bytes : List UInt8) (start : Nat) :
    bytes.foldl (fun value byte => value * 256 + byte.toNat) start =
      start * byteWeight bytes.length + bigEndian bytes := by
  induction bytes generalizing start with
  | nil => simp [bigEndian]
  | cons byte rest ih =>
      simp only [List.foldl_cons, bigEndian, List.length_cons, ih (start * 256 + byte.toNat),
        ih (0 * 256 + byte.toNat), byteWeight_succ]
      grind

theorem bigEndian_cons (byte : UInt8) (rest : List UInt8) :
    bigEndian (byte :: rest) = byte.toNat * byteWeight rest.length + bigEndian rest := by
  have weighed := foldl_weight rest byte.toNat
  simpa [bigEndian] using weighed

theorem bigEndian_lt (bytes : List UInt8) : bigEndian bytes < byteWeight bytes.length := by
  induction bytes with
  | nil => simp [bigEndian]
  | cons byte rest ih =>
      have small : byte.toNat + 1 ≤ 256 := byte.toNat_lt
      have scaled := Nat.mul_le_mul_right (byteWeight rest.length) small
      rw [bigEndian_cons, List.length_cons, byteWeight_succ]
      grind

/-- Byte strings of one length that denote the same number are the same. -/
theorem eq_of_bigEndian_eq {left right : List UInt8} (sameLength : left.length = right.length)
    (sameNumber : bigEndian left = bigEndian right) : left = right := by
  induction left generalizing right with
  | nil => exact (List.eq_nil_of_length_eq_zero sameLength.symm).symm
  | cons byte rest ih =>
      match right with
      | [] => simp at sameLength
      | other :: others =>
          have lengths : rest.length = others.length := by simpa using sameLength
          rw [bigEndian_cons, bigEndian_cons, lengths] at sameNumber
          have restSmall := bigEndian_lt rest
          have othersSmall := bigEndian_lt others
          rw [lengths] at restSmall
          have heads : byte.toNat = other.toNat := by
            have divided := congrArg (· / byteWeight others.length) sameNumber
            have positive := byteWeight_pos others.length
            simpa [Nat.mul_add_div, Nat.mul_comm, positive,
              Nat.div_eq_of_lt restSmall, Nat.div_eq_of_lt othersSmall] using divided
          rw [heads] at sameNumber
          rw [UInt8.toNat_inj.mp heads, ih lengths (by omega)]

/-- The lowest `size` bytes of a number, the heaviest first. -/
def bigEndianBytes : (size : Nat) → (value : Nat) → List UInt8
  | 0, _ => []
  | size + 1, value => bigEndianBytes size (value / 256) ++ [UInt8.ofNat (value % 256)]

@[simp] theorem length_bigEndianBytes (size value : Nat) :
    (bigEndianBytes size value).length = size := by
  induction size generalizing value with
  | zero => rfl
  | succ size ih => simp [bigEndianBytes, ih]

/-- As many bytes as a number of any size needs, the heaviest first. Even zero
needs one. -/
def minimalBytes (value : Nat) : List UInt8 :=
  if _single : value < 256 then [UInt8.ofNat value]
  else minimalBytes (value / 256) ++ [UInt8.ofNat (value % 256)]
termination_by value

/-- A byte string whose length its type fixes, so no reader has to check it
again. -/
structure FixedBytes (size : Nat) where
  bytes : List UInt8
  length_bytes : bytes.length = size
deriving DecidableEq

namespace FixedBytes

/-- Bytes of the right number, and nothing for any other. -/
def ofList? (size : Nat) (bytes : List UInt8) : Option (FixedBytes size) :=
  if sized : bytes.length = size then some ⟨bytes, sized⟩ else none

/-- The low bytes of a number. -/
def ofNat (size value : Nat) : FixedBytes size :=
  ⟨bigEndianBytes size value, length_bigEndianBytes size value⟩

/-- The number that the bytes denote. -/
def toNat {size : Nat} (value : FixedBytes size) : Nat := bigEndian value.bytes

theorem toNat_inj {size : Nat} {left right : FixedBytes size} :
    left.toNat = right.toNat ↔ left = right := by
  constructor
  · intro sameNumber
    have sameBytes : left.bytes = right.bytes :=
      eq_of_bigEndian_eq (by rw [left.length_bytes, right.length_bytes]) sameNumber
    cases left; cases right; cases sameBytes; rfl
  · rintro rfl; rfl

end FixedBytes

/-- An account or a token contract. -/
abbrev Address := FixedBytes 20

/-- The address that stands for no account. -/
def Address.zero : Address := FixedBytes.ofNat 20 0

abbrev OrderUid := FixedBytes 56

/-- A digest, a transaction hash or an order's application data. -/
abbrev Digest := FixedBytes 32

end BatchAuction
