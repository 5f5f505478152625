import BatchAuction.Bytes

/-!
# Amounts

Token amounts, prices and gas prices are numbers below `2 ^ 256`, so that each
of them fits the thirty-two bytes of a contract word. Numbers of any size come
from amounts and become amounts again by way of their bytes.
-/

set_option autoImplicit false

namespace BatchAuction

/-- The first number too large for a word. -/
def Amount.limit : Nat := byteWeight 32

/-- An unsigned number that fits a word. -/
structure Amount where
  value : Nat
  value_lt_limit : value < Amount.limit
deriving DecidableEq

namespace Amount

/-- A number that fits, and nothing for a larger one. -/
def ofNat? (value : Nat) : Option Amount :=
  if fits : value < limit then some ⟨value, fits⟩ else none

theorem ofNat?_eq_some_iff {value : Nat} {amount : Amount} :
    ofNat? value = some amount ↔ amount.value = value := by
  unfold ofNat?
  split
  · constructor
    · intro equal; cases equal; rfl
    · rintro rfl; rfl
  · rename_i excess
    constructor
    · intro equal; cases equal
    · rintro rfl; exact absurd amount.value_lt_limit excess

theorem ofNat?_eq_none_iff {value : Nat} : ofNat? value = none ↔ limit ≤ value := by
  unfold ofNat?
  split <;> simp <;> omega

/-- The low bits of a number. -/
def ofNat (value : Nat) : Amount := ⟨value % limit, Nat.mod_lt value (by decide)⟩

def zero : Amount := ⟨0, by decide⟩

/-- The thirty-two bytes of the word. -/
def toBytes (amount : Amount) : List UInt8 := bigEndianBytes 32 amount.value

/-- The word that ends with some bytes and has zeros in front of them. -/
def ofBytes (bytes : List UInt8) (fits : bytes.length ≤ 32) : Amount :=
  ⟨bigEndian bytes, Nat.lt_of_lt_of_le (bigEndian_lt bytes) (byteWeight_mono fits)⟩

/-- Why a number is no amount. -/
inductive NarrowingError where
  | tooLarge
deriving DecidableEq, Repr

/-- Why a number is no amount, as text. -/
def NarrowingError.message : NarrowingError → String
  | .tooLarge => "too large"

/-- The number that the bytes of an amount denote. -/
def widen (amount : Amount) : Nat := bigEndian amount.toBytes

/-- The amount that the bytes of a number denote, if they fit a word. -/
def narrow (value : Nat) : Except NarrowingError Amount :=
  let bytes := minimalBytes value
  if fits : bytes.length ≤ 32 then .ok (ofBytes bytes fits) else .error .tooLarge

end Amount

end BatchAuction
