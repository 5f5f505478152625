import BatchAuction.Proofs.Bytes
import BatchAuction.Proofs.Decimal.Natural

/-!
# Amounts and numbers of any size

An amount is read from the bytes of its word, a number from as many bytes as it needs, and
both readings give back what was written. A number that needs no more bytes than a word has
is below the limit of amounts, which is where reading decimal digits into an amount stops
as well.
-/

set_option autoImplicit false

namespace BatchAuction.Amount

theorem widen_eq_value (amount : Amount) : amount.widen = amount.value :=
  (bigEndian_bigEndianBytes 32 amount.value).trans (Nat.mod_eq_of_lt amount.value_lt_limit)

/-- The number of bytes tells the same as the comparison with the limit. -/
theorem narrow_eq (value : Nat) :
    narrow value =
      match ofNat? value with
      | some amount => .ok amount
      | none => .error .tooLarge := by
  have enough : (minimalBytes value).length ≤ 32 ↔ value < limit :=
    length_minimalBytes_le_iff (by decide)
  unfold narrow ofNat?
  by_cases fits : value < limit
  · simp only [dif_pos fits, dif_pos (enough.mpr fits), ofBytes, bigEndian_minimalBytes]
  · simp only [dif_neg fits, dif_neg (mt enough.mp fits)]

theorem narrow_eq_ok_iff {value : Nat} {amount : Amount} :
    narrow value = .ok amount ↔ amount.value = value := by
  rw [narrow_eq, ← ofNat?_eq_some_iff]
  cases ofNat? value <;> simp

theorem narrow_eq_error_iff {value : Nat} :
    narrow value = .error .tooLarge ↔ limit ≤ value := by
  rw [narrow_eq, ← ofNat?_eq_none_iff]
  cases ofNat? value <;> simp

theorem exists_narrow_iff {value : Nat} :
    (∃ amount, narrow value = .ok amount) ↔ value < limit := by
  -- There is only one way to fail.
  rw [← Nat.not_le, ← narrow_eq_error_iff]
  cases narrow value with
  | ok amount => simp
  | error error => cases error; simp

theorem parseAmount_eq_narrow (s : String) :
    Decimal.parseAmount s =
      (Decimal.parseNatural s >>= fun value => (narrow value).mapError fun _ => .overflow) := by
  rw [Decimal.parseAmount_eq_bind]
  congr 1
  funext value
  rw [narrow_eq]
  cases ofNat? value <;> rfl

/-- Amounts are widened to the numbers they stand for and narrowed to themselves, the numbers
below `2 ^ 256` and no others are narrowed and then widened to themselves, and an amount is
read from a text by narrowing the number that the text denotes. -/
theorem widening_and_narrowing_exact (amount : Amount) (n : Nat) (s : String) :
    amount.widen = amount.value ∧
    narrow amount.widen = .ok amount ∧
    ((∃ narrowed, narrow n = .ok narrowed) ↔ n < Nat.pow 2 256) ∧
    (∀ narrowed, narrow n = .ok narrowed ↔ narrowed.widen = n) ∧
    (narrow n = .error .tooLarge ↔ Nat.pow 2 256 ≤ n) ∧
    Decimal.parseAmount s =
      (Decimal.parseNatural s >>= fun value => (narrow value).mapError fun _ => .overflow) := by
  have back (n : Nat) (narrowed : Amount) : narrow n = .ok narrowed ↔ narrowed.widen = n := by
    rw [narrow_eq_ok_iff, widen_eq_value]
  exact ⟨amount.widen_eq_value, (back _ amount).mpr rfl, exists_narrow_iff, back n,
    narrow_eq_error_iff, parseAmount_eq_narrow s⟩

end BatchAuction.Amount
