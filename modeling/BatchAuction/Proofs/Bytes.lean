import BatchAuction.Bytes

/-!
# Reading back the bytes of a number

A number is read back from its low bytes if there are enough of them, and a byte string
of fixed length from the number that it denotes. How many bytes a number needs tells
between which powers it lies.
-/

set_option autoImplicit false

namespace BatchAuction

theorem bigEndian_append_singleton (front : List UInt8) (byte : UInt8) :
    bigEndian (front ++ [byte]) = bigEndian front * 256 + byte.toNat := by
  simp [bigEndian, List.foldl_append]

/-- A number is read from its low bytes, unless it is too large for them. -/
theorem bigEndian_bigEndianBytes (size value : Nat) :
    bigEndian (bigEndianBytes size value) = value % byteWeight size := by
  induction size generalizing value with
  | zero => simp [bigEndianBytes, bigEndian, Nat.mod_one]
  | succ size ih =>
      rw [bigEndianBytes, bigEndian_append_singleton, ih, byteWeight_succ,
        Nat.mul_comm (byteWeight size), Nat.mod_mul, UInt8.toNat_ofNat']
      omega

/-- A number is read from as many bytes as it needs. -/
theorem bigEndian_minimalBytes (value : Nat) : bigEndian (minimalBytes value) = value := by
  fun_induction minimalBytes value with
  | case1 value single => simpa [bigEndian] using Nat.mod_eq_of_lt single
  | case2 value several ih =>
      rw [bigEndian_append_singleton, ih, UInt8.toNat_ofNat']
      omega

/-- So many bytes are enough just for the numbers below the weight of one byte more. -/
theorem length_minimalBytes_le_iff {size value : Nat} (positive : 0 < size) :
    (minimalBytes value).length ≤ size ↔ value < byteWeight size := by
  constructor
  · intro enough
    calc value = bigEndian (minimalBytes value) := (bigEndian_minimalBytes value).symm
      _ < byteWeight (minimalBytes value).length := bigEndian_lt _
      _ ≤ byteWeight size := byteWeight_mono enough
  · intro below
    fun_induction minimalBytes value generalizing size with
    | case1 value single => exact positive
    | case2 value several ih =>
        match size with
        | 1 => exact absurd below several
        | size + 2 =>
            -- The last byte takes one place, the others are those of the quotient.
            rw [byteWeight_succ, Nat.mul_comm] at below
            rw [List.length_append]
            exact Nat.succ_le_succ (ih (Nat.succ_pos size) (Nat.div_lt_of_lt_mul below))

example : minimalBytes 0 = [0] ∧ minimalBytes 255 = [255] ∧ minimalBytes 256 = [1, 0] := by
  decide +kernel

theorem FixedBytes.ofNat_toNat {size : Nat} (value : FixedBytes size) :
    FixedBytes.ofNat size value.toNat = value := by
  apply FixedBytes.toNat_inj.mp
  have small := bigEndian_lt value.bytes
  rw [value.length_bytes] at small
  exact (bigEndian_bigEndianBytes size value.toNat).trans (Nat.mod_eq_of_lt small)

theorem FixedBytes.toNat_lt {size : Nat} (value : FixedBytes size) :
    value.toNat < byteWeight size := by
  have small := bigEndian_lt value.bytes
  rw [value.length_bytes] at small
  exact small

end BatchAuction
