import BatchAuction.Proofs.Decimal.Natural
import Mathlib.Data.Nat.Digits.Defs

/-!
# The grammar of decimal amounts

The texts that are read as numbers are described without the reader: a zero on its own,
or ASCII digits of which the first is no zero, standing for the number they denote by
place value. Every other text is refused for one reason, and a number and its text
determine each other.
-/

set_option autoImplicit false

namespace BatchAuction.Decimal

def IsAsciiDigit (c : Char) : Prop := 48 ≤ c.toNat ∧ c.toNat ≤ 57

/-- The texts that stand for a number. -/
inductive Canonical : List Char → Prop where
  | zero : Canonical ['0']
  | positive {first : Char} {rest : List Char} :
      first ≠ '0' → (∀ c ∈ first :: rest, IsAsciiDigit c) → Canonical (first :: rest)

/-- The other texts, each with the reason that is given for it. -/
inductive Refused : List Char → ParseError → Prop where
  | foreign {before after : List Char} {c : Char} :
      (∀ earlier ∈ before, IsAsciiDigit earlier) → ¬ IsAsciiDigit c →
      Refused (before ++ c :: after) (.invalidDigit c)
  | empty : Refused [] .empty
  | leadingZero {next : Char} {rest : List Char} :
      (∀ c ∈ next :: rest, IsAsciiDigit c) → Refused ('0' :: next :: rest) .leadingZero

/-- The number that decimal digits denote, the last one being the units. -/
def denoted (cs : List Char) : Nat := Nat.ofDigits 10 (cs.reverse.map fun c => c.toNat - 48)

theorem isDigit_eq_true_iff {c : Char} : isDigit c = true ↔ IsAsciiDigit c := isDigit_iff

theorem isDigit_eq_false_iff {c : Char} : isDigit c = false ↔ ¬ IsAsciiDigit c := by
  rw [← isDigit_eq_true_iff, Bool.not_eq_true]

theorem ofDigits_eq_denoted (cs : List Char) : ofDigits cs = denoted cs := by
  induction cs using List.reverseRecOn with
  | nil => rfl
  | append_singleton front c ih =>
      have units : denoted (front ++ [c]) = (c.toNat - 48) + 10 * denoted front := by
        simp [denoted, Nat.ofDigits_cons]
      rw [ofDigits_append_singleton, ih, units, digitValue]
      omega

theorem canonical_or_refused (cs : List Char) :
    Canonical cs ∨ ∃ error, Refused cs error := by
  cases found : cs.find? (fun c => !isDigit c) with
  | some c =>
      -- A foreign character is the reason, whatever else is wrong with the text.
      obtain ⟨foreign, before, after, rfl, native⟩ := List.find?_eq_some_iff_append.mp found
      refine .inr ⟨_, .foreign (fun earlier among => ?_) (fun digit => ?_)⟩
      · simpa [isDigit_eq_true_iff] using native earlier among
      · simp [isDigit_eq_true_iff.mpr digit] at foreign
  | none =>
      have native : ∀ c ∈ cs, IsAsciiDigit c := by
        intro c among
        simpa [isDigit_eq_true_iff] using List.find?_eq_none.mp found c among
      match cs with
      | [] => exact .inr ⟨_, .empty⟩
      | first :: rest =>
          by_cases zero : first = '0'
          · subst zero
            cases rest with
            | nil => exact .inl .zero
            | cons next rest =>
                exact .inr ⟨_, .leadingZero fun c among => native c (.tail _ among)⟩
          · exact .inl (.positive zero native)

theorem find?_foreign_of_native {cs : List Char} (native : ∀ c ∈ cs, IsAsciiDigit c) :
    cs.find? (fun c => !isDigit c) = none := by
  apply List.find?_eq_none.mpr
  intro c among
  simp [isDigit_eq_true_iff.mpr (native c among)]

theorem Canonical.validate {cs : List Char} (canonical : Canonical cs) :
    validate cs = .ok () := by
  cases canonical with
  | zero => rfl
  | @positive first rest leading native =>
      simp only [Decimal.validate, find?_foreign_of_native native]
      split
      · contradiction
      · simp_all
      · rfl

theorem Refused.validate {cs : List Char} {error : ParseError} (refused : Refused cs error) :
    validate cs = .error error := by
  cases refused with
  | empty => rfl
  | @foreign before after c native foreign =>
      have found : (before ++ c :: after).find? (fun c => !isDigit c) = some c := by
        apply List.find?_eq_some_iff_append.mpr
        refine ⟨?_, before, after, rfl, fun earlier among => ?_⟩
        · simpa using isDigit_eq_false_iff.mpr foreign
        · simp [isDigit_eq_true_iff.mpr (native earlier among)]
      simp only [Decimal.validate, found]
  | @leadingZero next rest native =>
      have native : ∀ c ∈ '0' :: next :: rest, IsAsciiDigit c :=
        List.forall_mem_cons.mpr ⟨by unfold IsAsciiDigit; decide, native⟩
      simp only [Decimal.validate, find?_foreign_of_native native]

theorem validate_eq_ok_iff {cs : List Char} : validate cs = .ok () ↔ Canonical cs := by
  constructor
  · intro valid
    rcases canonical_or_refused cs with canonical | ⟨error, refused⟩
    · exact canonical
    · simp [refused.validate] at valid
  · exact Canonical.validate

theorem validate_eq_error_iff {cs : List Char} {error : ParseError} :
    validate cs = .error error ↔ Refused cs error := by
  constructor
  · intro invalid
    rcases canonical_or_refused cs with canonical | ⟨other, refused⟩
    · simp [canonical.validate] at invalid
    · rw [refused.validate] at invalid
      cases invalid
      exact refused
  · exact Refused.validate

theorem parseNatural_eq_ok_iff_denoted {s : String} {n : Nat} :
    parseNatural s = .ok n ↔ Canonical s.toList ∧ denoted s.toList = n := by
  rw [← validate_eq_ok_iff, ← ofDigits_eq_denoted]
  unfold parseNatural
  cases validate s.toList <;> simp [bind, Except.bind, pure, Except.pure]

theorem parseNatural_eq_error_iff {s : String} {error : ParseError} :
    parseNatural s = .error error ↔ Refused s.toList error := by
  rw [← validate_eq_error_iff]
  unfold parseNatural
  cases validate s.toList <;> simp [bind, Except.bind, pure, Except.pure]

/-- An amount is read just where its number is. -/
theorem parseAmount_eq_ok_iff_natural {s : String} {amount : Amount} :
    parseAmount s = .ok amount ↔ parseNatural s = .ok amount.value := by
  rw [parseAmount_eq_ok_iff, parseNatural_eq_ok_iff]

theorem exists_amount_iff {n : Nat} :
    (∃ amount : Amount, amount.value = n) ↔ n < Nat.pow 2 256 := by
  constructor
  · intro holds
    obtain ⟨amount, rfl⟩ := holds
    exact amount.value_lt_limit
  · intro below
    exact ⟨⟨n, below⟩, rfl⟩

theorem parseAmount_eq_error_iff {s : String} {error : ParseError} :
    parseAmount s = .error error ↔
      parseNatural s = .error error ∨
        error = .overflow ∧ ∃ n, parseNatural s = .ok n ∧ Nat.pow 2 256 ≤ n := by
  rw [parseAmount_eq_bind]
  cases parseNatural s with
  | error other => simp [bind, Except.bind]
  | ok n =>
      cases fits : Amount.ofNat? n with
      | some amount =>
          have below := exists_amount_iff.mp ⟨amount, Amount.ofNat?_eq_some_iff.mp fits⟩
          simp [bind, Except.bind, fits, pure, Except.pure, below]
      | none =>
          have large : Nat.pow 2 256 ≤ n := Amount.ofNat?_eq_none_iff.mp fits
          simp [bind, Except.bind, fits, throw, throwThe, MonadExceptOf.throw, large, eq_comm]

/-- Numbers of any size and amounts are read from their canonical texts and from nothing
else, every other text is refused for its own reason, and reading undoes printing as
printing undoes reading. -/
theorem reads_exactly_canonical_decimals (s : String) :
    (∀ n, parseNatural s = .ok n ↔ Canonical s.toList ∧ denoted s.toList = n) ∧
    (∀ amount, parseAmount s = .ok amount ↔
      Canonical s.toList ∧ denoted s.toList = amount.value) ∧
    ((∃ amount, parseAmount s = .ok amount) ↔
      Canonical s.toList ∧ denoted s.toList < Nat.pow 2 256) ∧
    (∀ error, parseNatural s = .error error ↔ Refused s.toList error) ∧
    (∀ error, parseAmount s = .error error ↔
      Refused s.toList error ∨
        error = .overflow ∧ Canonical s.toList ∧ Nat.pow 2 256 ≤ denoted s.toList) ∧
    (∀ n, parseNatural s = .ok n ↔ print n = s) ∧
    (∀ amount, parseAmount s = .ok amount ↔ print amount.value = s) ∧
    (∀ n, (∃ amount : Amount, amount.value = n ∧ parseAmount (print n) = .ok amount) ↔
      n < Nat.pow 2 256) := by
  refine ⟨fun n => parseNatural_eq_ok_iff_denoted, fun amount => ?_, ?_,
    fun error => parseNatural_eq_error_iff, fun error => ?_, fun n => ?_, fun amount => ?_,
    fun n => ?_⟩
  · exact parseAmount_eq_ok_iff_natural.trans parseNatural_eq_ok_iff_denoted
  · simp only [parseAmount_eq_ok_iff_natural, parseNatural_eq_ok_iff_denoted, exists_and_left,
      ← exists_amount_iff, eq_comm (a := denoted s.toList)]
  · rw [parseAmount_eq_error_iff, parseNatural_eq_error_iff]
    simp [parseNatural_eq_ok_iff_denoted, and_assoc]
  · exact parseNatural_eq_ok_iff.trans eq_comm
  · exact parseAmount_eq_ok_iff.trans eq_comm
  · rw [← exists_amount_iff]
    constructor
    · intro holds
      obtain ⟨amount, same, _⟩ := holds
      exact ⟨amount, same⟩
    · intro holds
      obtain ⟨amount, rfl⟩ := holds
      exact ⟨amount, rfl, parseAmount_print amount⟩

end BatchAuction.Decimal
