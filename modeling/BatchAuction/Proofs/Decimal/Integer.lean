import BatchAuction.Proofs.Decimal.Natural

/-!
# Which texts are integers

An integer text is a sign, if there is one, and digits, leading zeros among them. Only a
signed integer has a minus. The reader of a range accepts just the texts of the integers in
the range.
-/

set_option autoImplicit false

namespace BatchAuction.Decimal

/-- The integer that a text denotes. -/
inductive IntegerText (signed : Bool) : List Char → Int → Prop where
  | plain {cs : List Char} : cs ≠ [] → (∀ c ∈ cs, isDigit c = true) →
      IntegerText signed cs (ofDigits cs)
  | plus {cs : List Char} : cs ≠ [] → (∀ c ∈ cs, isDigit c = true) →
      IntegerText signed ('+' :: cs) (ofDigits cs)
  | minus {cs : List Char} : signed = true → cs ≠ [] → (∀ c ∈ cs, isDigit c = true) →
      IntegerText signed ('-' :: cs) (-(ofDigits cs : Int))

variable {limit value : Nat} {excess : IntegerError} {cs : List Char} {s : String}

/-- Digits are taken up to the end just if they are digits and stay within the limit. -/
theorem takeDigits_eq_ok_iff {result : Nat} (within : value ≤ limit) :
    takeDigits limit excess cs value = .ok result ↔
      (∀ c ∈ cs, isDigit c = true) ∧
        cs.foldl (fun value c => value * 10 + digitValue c) value = result ∧ result ≤ limit := by
  constructor
  · intro taken
    induction cs generalizing value with
    | nil =>
        cases taken
        exact ⟨nofun, rfl, within⟩
    | cons c rest ih =>
        rw [takeDigits] at taken
        split at taken
        · cases taken
        · rename_i native
          split at taken
          · cases taken
          · rename_i fits
            obtain ⟨restNative, denoted, below⟩ := ih (Nat.not_lt.mp fits) taken
            refine ⟨List.forall_mem_cons.mpr ⟨?_, restNative⟩, denoted, below⟩
            simpa using native
  · rintro ⟨native, rfl, below⟩
    exact takeDigits_eq_ok native below

theorem takeDigits_zero_eq_ok_iff {result : Nat} :
    takeDigits limit excess cs 0 = .ok result ↔
      (∀ c ∈ cs, isDigit c = true) ∧ ofDigits cs = result ∧ result ≤ limit :=
  takeDigits_eq_ok_iff (Nat.zero_le _)

/-!
## One sign or none
-/

variable {signed : Bool} {n : Int}

theorem integerText_nil_iff : IntegerText signed [] n ↔ False := by
  refine iff_false_intro fun text => ?_
  cases text with
  | plain present => exact present rfl

theorem integerText_plus_iff :
    IntegerText signed ('+' :: cs) n ↔
      cs ≠ [] ∧ (∀ c ∈ cs, isDigit c = true) ∧ (ofDigits cs : Int) = n := by
  constructor
  · intro text
    cases text with
    | plain _ native => exact absurd (native '+' List.mem_cons_self) (by decide)
    | plus present native => exact ⟨present, native, rfl⟩
  · rintro ⟨present, native, rfl⟩
    exact .plus present native

theorem integerText_minus_iff :
    IntegerText signed ('-' :: cs) n ↔
      signed = true ∧ cs ≠ [] ∧ (∀ c ∈ cs, isDigit c = true) ∧ -(ofDigits cs : Int) = n := by
  constructor
  · intro text
    cases text with
    | plain _ native => exact absurd (native '-' List.mem_cons_self) (by decide)
    | minus isSigned present native => exact ⟨isSigned, present, native, rfl⟩
  · rintro ⟨isSigned, present, native, rfl⟩
    exact .minus isSigned present native

/-- A text that begins with no sign is nothing but digits. -/
theorem integerText_of_no_sign (present : cs ≠ []) (positive : ∀ rest, cs ≠ '+' :: rest)
    (unsigned : ∀ rest, cs ≠ '-' :: rest) :
    IntegerText signed cs n ↔
      (∀ c ∈ cs, isDigit c = true) ∧ (ofDigits cs : Int) = n := by
  constructor
  · intro text
    cases text with
    | plain _ native => exact ⟨native, rfl⟩
    | plus => exact absurd rfl (positive _)
    | minus => exact absurd rfl (unsigned _)
  · rintro ⟨native, rfl⟩
    exact .plain present native

private theorem map_eq_ok_iff {α β : Type} {read : Except IntegerError α} {change : α → β}
    {result : β} : read.map change = .ok result ↔ ∃ n, read = .ok n ∧ change n = result := by
  cases read <;> simp [Except.map]

/-- A signed integer text is read just if its integer lies in the range. -/
theorem parseSigned_eq_ok_iff :
    parseSigned limit s = .ok n ↔
      IntegerText true s.toList n ∧ -(limit + 1 : Int) ≤ n ∧ n ≤ limit := by
  unfold parseSigned
  split
  · rename_i empty
    rw [empty, integerText_nil_iff]
    simp
  · rename_i alone
    rw [alone, integerText_plus_iff]
    simp
  · rename_i alone
    rw [alone, integerText_minus_iff]
    simp
  · rename_i digits present leads
    rw [leads, integerText_plus_iff, map_eq_ok_iff]
    simp only [takeDigits_zero_eq_ok_iff]
    grind
  · rename_i digits present leads
    have taken : (takeDigits (limit + 1) .tooSmall digits 0 >>= fun n => pure (n : Int)).map
        (fun n => -n) = .ok n ↔
          ∃ m : Nat, takeDigits (limit + 1) .tooSmall digits 0 = .ok m ∧ -(m : Int) = n := by
      cases takeDigits (limit + 1) .tooSmall digits 0 <;>
        simp [Except.map, bind, Except.bind, pure, Except.pure]
    rw [leads, integerText_minus_iff, taken]
    simp only [takeDigits_zero_eq_ok_iff]
    grind
  · rename_i present _ _ positive unsigned
    rw [integerText_of_no_sign present positive unsigned, map_eq_ok_iff]
    simp only [takeDigits_zero_eq_ok_iff]
    grind

/-- An unsigned integer text is read just if its integer lies in the range. -/
theorem parseUnsigned_eq_ok_iff {result : Nat} :
    parseUnsigned limit s = .ok result ↔
      IntegerText false s.toList result ∧ result ≤ limit := by
  unfold parseUnsigned
  split
  · rename_i empty
    rw [empty, integerText_nil_iff]
    simp
  · rename_i alone
    rw [alone, integerText_plus_iff]
    simp
  · rename_i digits present leads
    rw [leads, integerText_plus_iff, takeDigits_zero_eq_ok_iff]
    grind
  · rename_i present _ positive
    rw [takeDigits_zero_eq_ok_iff]
    by_cases minus : ∃ rest, s.toList = '-' :: rest
    · obtain ⟨rest, leads⟩ := minus
      have foreign : isDigit '-' = false := by decide
      rw [leads, integerText_minus_iff]
      simp [foreign]
    · rw [integerText_of_no_sign present positive fun rest leads => minus ⟨rest, leads⟩]
      grind

end BatchAuction.Decimal
