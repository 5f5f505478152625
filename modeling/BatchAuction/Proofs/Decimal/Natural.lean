import BatchAuction.Decimal.Integer
import BatchAuction.Json.Number
import Mathlib.Data.List.Induction

/-!
# Decimal text is read back

The digits of a number denote it, and they are a canonical text: none is foreign and a
zero only leads where it stands alone. Every reader of integers therefore gets back the
number that was written, as far as its range reaches.
-/

set_option autoImplicit false

namespace BatchAuction.Decimal

/-!
## Digits
-/

theorem isDigit_digitChar : ∀ value < 10, isDigit (digitChar value) = true := by decide

theorem digitValue_digitChar : ∀ value < 10, digitValue (digitChar value) = value := by decide

theorem digitChar_eq_zero_iff : ∀ value < 10, (digitChar value = '0' ↔ value = 0) := by decide

theorem isDigit_iff {c : Char} : isDigit c = true ↔ 48 ≤ c.toNat ∧ c.toNat ≤ 57 := by
  unfold isDigit
  rw [Bool.and_eq_true, decide_eq_true_iff, decide_eq_true_iff]
  exact Iff.rfl

theorem ne_of_isDigit {c other : Char} (digit : isDigit c = true)
    (foreign : isDigit other = false) : c ≠ other := by
  rintro rfl
  exact absurd digit (Bool.eq_false_iff.mp foreign)

theorem digits_of_lt {n : Nat} (small : n < 10) : digits n = [digitChar n] := by
  rw [digits, dif_pos small]

theorem digits_of_le {n : Nat} (large : 10 ≤ n) :
    digits n = digits (n / 10) ++ [digitChar (n % 10)] := by
  rw [digits, dif_neg (Nat.not_lt.mpr large)]

/-- What holds of single digits and is kept by one digit more holds of all digits. -/
theorem digits_induction {motive : Nat → Prop} (single : ∀ n < 10, motive n)
    (more : ∀ n, 10 ≤ n → motive (n / 10) → motive n) (n : Nat) : motive n := by
  induction n using Nat.strongRecOn with
  | _ n ih =>
      by_cases small : n < 10
      · exact single n small
      · exact more n (Nat.not_lt.mp small) (ih (n / 10) (by omega))

theorem ofDigits_append_singleton (cs : List Char) (c : Char) :
    ofDigits (cs ++ [c]) = ofDigits cs * 10 + digitValue c := by
  simp [ofDigits, List.foldl_append]

theorem ofDigits_digits (n : Nat) : ofDigits (digits n) = n := by
  induction n using digits_induction with
  | single n small =>
      rw [digits_of_lt small, ofDigits, List.foldl_cons, digitValue_digitChar n small]
      simp
  | more n large ih =>
      rw [digits_of_le large, ofDigits_append_singleton, ih,
        digitValue_digitChar _ (Nat.mod_lt n (by decide))]
      omega

theorem isDigit_of_mem_digits {n : Nat} {c : Char} (among : c ∈ digits n) :
    isDigit c = true := by
  induction n using digits_induction with
  | single n small =>
      rw [digits_of_lt small, List.mem_singleton] at among
      exact among ▸ isDigit_digitChar n small
  | more n large ih =>
      rw [digits_of_le large, List.mem_append, List.mem_singleton] at among
      rcases among with among | rfl
      · exact ih among
      · exact isDigit_digitChar _ (Nat.mod_lt n (by decide))

theorem digits_ne_nil (n : Nat) : digits n ≠ [] := by
  rw [digits]
  split <;> simp

/-- A zero leads only where it stands alone. -/
theorem eq_nil_of_digits_eq {n : Nat} {rest : List Char} (leads : digits n = '0' :: rest) :
    n = 0 ∧ rest = [] := by
  induction n using digits_induction generalizing rest with
  | single n small =>
      rw [digits_of_lt small] at leads
      obtain ⟨zero, empty⟩ := List.cons_eq_cons.mp leads
      exact ⟨(digitChar_eq_zero_iff n small).mp zero, empty.symm⟩
  | more n large ih =>
      rw [digits_of_le large] at leads
      cases first : digits (n / 10) with
      | nil => exact absurd first (digits_ne_nil _)
      | cons head tail =>
          rw [first, List.cons_append] at leads
          obtain ⟨rfl, _⟩ := List.cons_eq_cons.mp leads
          obtain ⟨zero, _⟩ := ih first
          omega

theorem exists_digits_eq_cons (n : Nat) :
    ∃ first rest, digits n = first :: rest ∧ isDigit first = true := by
  cases leads : digits n with
  | nil => exact absurd leads (digits_ne_nil n)
  | cons first rest =>
      exact ⟨first, rest, rfl, isDigit_of_mem_digits (leads ▸ List.mem_cons_self)⟩

/-- Numbers below a power of ten have at most so many digits. -/
theorem length_digits_le {n width : Nat} (positive : 0 < width) (small : n < Nat.pow 10 width) :
    (digits n).length ≤ width := by
  induction n using digits_induction generalizing width with
  | single n below => rw [digits_of_lt below]; exact positive
  | more n large ih =>
      match width with
      | 1 => exact absurd small (Nat.not_lt.mpr large)
      | width + 2 =>
          have narrower : n / 10 < Nat.pow 10 (width + 1) :=
            Nat.div_lt_of_lt_mul (Nat.mul_comm .. ▸ small)
          rw [digits_of_le large, List.length_append]
          exact Nat.succ_le_succ (ih (Nat.succ_pos width) narrower)

theorem ofDigits_append (cs others : List Char) :
    ofDigits (cs ++ others) = ofDigits cs * Nat.pow 10 others.length + ofDigits others := by
  induction others using List.reverseRecOn with
  | nil => simp [ofDigits]
  | append_singleton rest c ih =>
      rw [← List.append_assoc, ofDigits_append_singleton, ih, ofDigits_append_singleton,
        List.length_append]
      change _ = _ * (Nat.pow 10 rest.length * 10) + _
      grind

theorem ofDigits_replicate_zero_append (count : Nat) (cs : List Char) :
    ofDigits (List.replicate count '0' ++ cs) = ofDigits cs := by
  induction count with
  | zero => rfl
  | succ count ih => exact ih

@[simp] theorem toList_print (n : Nat) : (print n).toList = digits n := String.toList_ofList

/-!
## Canonical numbers
-/

theorem validate_digits (n : Nat) : validate (digits n) = .ok () := by
  have native : (digits n).find? (fun c => !isDigit c) = none := by
    rw [List.find?_eq_none]
    intro c among
    simp [isDigit_of_mem_digits among]
  unfold validate
  rw [native]
  cases leads : digits n with
  | nil => exact absurd leads (digits_ne_nil n)
  | cons first rest =>
      dsimp only
      split
      · rename_i same
        cases same
      · rename_i same
        cases same
        cases (eq_nil_of_digits_eq leads).2
      · rfl

theorem parseNatural_print (n : Nat) : parseNatural (print n) = .ok n := by
  unfold parseNatural
  rw [toList_print, validate_digits, ofDigits_digits]
  rfl

theorem le_foldl_digits (cs : List Char) (value : Nat) :
    value ≤ cs.foldl (fun value c => value * 10 + digitValue c) value := by
  induction cs generalizing value with
  | nil => exact Nat.le_refl _
  | cons c rest ih => exact Nat.le_trans (by omega) (ih (value * 10 + digitValue c))

/-- Digits are taken up to the end just if their number fits, since it never shrinks on the way. -/
theorem accumulate_eq_some_iff {total amount : Amount} {cs : List Char} :
    accumulate total cs = some amount ↔
      cs.foldl (fun value c => value * 10 + digitValue c) total.value = amount.value := by
  induction cs generalizing total with
  | nil =>
      constructor
      · intro same
        cases same
        rfl
      · intro same
        cases total
        cases amount
        cases same
        rfl
  | cons c rest ih =>
      rw [accumulate, List.foldl_cons]
      cases fits : Amount.ofNat? (total.value * 10 + digitValue c) with
      | some more => simp [ih, Amount.ofNat?_eq_some_iff.mp fits]
      | none =>
          have large := Amount.ofNat?_eq_none_iff.mp fits
          have grows := le_foldl_digits rest (total.value * 10 + digitValue c)
          have below := amount.value_lt_limit
          simp only [Option.bind_none, reduceCtorEq, false_iff]
          omega

/-- The amount that accumulates is the number of the digits, if that fits a word. -/
theorem accumulate_zero (cs : List Char) : accumulate .zero cs = Amount.ofNat? (ofDigits cs) := by
  ext amount
  rw [accumulate_eq_some_iff, Amount.ofNat?_eq_some_iff, eq_comm]
  rfl

/-- Reading an amount is reading a number of any size that then has to fit a word. -/
theorem parseAmount_eq_bind (s : String) :
    parseAmount s = parseNatural s >>= fun value =>
      match Amount.ofNat? value with
      | some amount => pure amount
      | none => throw .overflow := by
  unfold parseAmount parseNatural
  rw [accumulate_zero]
  cases validate s.toList <;> rfl

theorem parseAmount_print (amount : Amount) : parseAmount (print amount.value) = .ok amount := by
  have fits : Amount.ofNat? amount.value = some amount := Amount.ofNat?_eq_some_iff.mpr rfl
  rw [parseAmount_eq_bind, parseNatural_print]
  simp only [bind, Except.bind, fits]
  rfl

theorem digitChar_digitValue {c : Char} (digit : isDigit c = true) :
    digitChar (digitValue c) = c := by
  obtain ⟨least, _⟩ := isDigit_iff.mp digit
  have code : 48 + (c.toNat - 48) = c.toNat := by omega
  unfold digitChar digitValue
  rw [code, Char.ofNat_toNat]

/-- A text of digits that has a leading zero only where it stands alone is the text of its
number. -/
theorem digits_ofDigits {cs : List Char} (nonempty : cs ≠ []) (native : ∀ c ∈ cs, isDigit c = true)
    (canonical : ∀ rest, cs = '0' :: rest → rest = []) : digits (ofDigits cs) = cs := by
  induction cs using List.reverseRecOn with
  | nil => exact absurd rfl nonempty
  | append_singleton front c ih =>
      rw [List.forall_mem_append, List.forall_mem_singleton] at native
      obtain ⟨frontNative, digit⟩ := native
      have below : digitValue c < 10 := by
        have range := isDigit_iff.mp digit
        unfold digitValue
        omega
      rw [ofDigits_append_singleton]
      cases front with
      | nil =>
          rw [ofDigits, List.foldl_nil, Nat.zero_mul, Nat.zero_add, digits_of_lt below,
            digitChar_digitValue digit]
          rfl
      | cons first others =>
          -- More digits stand behind the first one, so it is no zero.
          have leading : first ≠ '0' := by
            rintro rfl
            cases List.append_eq_nil_iff.mp (canonical _ rfl) with
            | intro _ none => cases none
          have own := ih (List.cons_ne_nil _ _) frontNative fun rest same =>
            absurd (List.cons.inj same).1 leading
          have positive : ofDigits (first :: others) ≠ 0 := by
            intro zero
            rw [zero, digits_of_lt (by decide)] at own
            exact leading (List.cons.inj own).1.symm
          have quotient : (ofDigits (first :: others) * 10 + digitValue c) / 10 =
              ofDigits (first :: others) := by omega
          have remainder : (ofDigits (first :: others) * 10 + digitValue c) % 10 = digitValue c := by
            omega
          rw [digits_of_le (by omega), quotient, remainder, own, digitChar_digitValue digit]

theorem digits_ofDigits_of_validate {cs : List Char} (valid : validate cs = .ok ()) :
    digits (ofDigits cs) = cs := by
  unfold validate at valid
  split at valid
  · cases valid
  · rename_i native
    have native : ∀ c ∈ cs, isDigit c = true := by simpa using List.find?_eq_none.mp native
    split at valid
    · cases valid
    · cases valid
    · rename_i nonempty canonical
      exact digits_ofDigits nonempty native fun rest same => by
        cases rest with
        | nil => rfl
        | cons next rest => exact absurd same (canonical next rest)

/-- A text is read as a number just if it is what is written for the number. -/
theorem parseNatural_eq_ok_iff {text : String} {n : Nat} :
    parseNatural text = .ok n ↔ text = print n := by
  constructor
  · intro read
    unfold parseNatural at read
    cases valid : validate text.toList with
    | error error => rw [valid] at read; cases read
    | ok =>
        rw [valid] at read
        cases read
        rw [print, digits_ofDigits_of_validate valid, String.ofList_toList]
  · rintro rfl
    exact parseNatural_print n

theorem parseAmount_eq_ok_iff {text : String} {amount : Amount} :
    parseAmount text = .ok amount ↔ text = print amount.value := by
  constructor
  · intro read
    rw [parseAmount_eq_bind] at read
    cases natural : parseNatural text with
    | error error => rw [natural] at read; cases read
    | ok n =>
        rw [natural] at read
        cases fits : Amount.ofNat? n with
        | none => simp only [bind, Except.bind, fits] at read; cases read
        | some found =>
            simp only [bind, Except.bind, fits] at read
            cases read
            rw [Amount.ofNat?_eq_some_iff.mp fits]
            exact parseNatural_eq_ok_iff.mp natural
  · rintro rfl
    exact parseAmount_print amount

/-!
## Integers of a range
-/

theorem takeDigits_eq_ok {limit : Nat} {excess : IntegerError} {cs : List Char} {value : Nat}
    (native : ∀ c ∈ cs, isDigit c = true)
    (fits : cs.foldl (fun value c => value * 10 + digitValue c) value ≤ limit) :
    takeDigits limit excess cs value =
      .ok (cs.foldl (fun value c => value * 10 + digitValue c) value) := by
  induction cs generalizing value with
  | nil => rfl
  | cons c rest ih =>
      have below := Nat.le_trans (le_foldl_digits rest (value * 10 + digitValue c)) fits
      rw [takeDigits, native c List.mem_cons_self, if_neg (by decide), if_neg (by omega)]
      exact ih (fun other among => native other (.tail _ among)) fits

theorem takeDigits_digits {limit n : Nat} (excess : IntegerError) (fits : n ≤ limit) :
    takeDigits limit excess (digits n) 0 = .ok n := by
  have denoted := ofDigits_digits n
  unfold ofDigits at denoted
  rw [takeDigits_eq_ok (fun c among => isDigit_of_mem_digits among) (by rwa [denoted]), denoted]

theorem parseSigned_print {limit n : Nat} (fits : n ≤ limit) :
    parseSigned limit (print n) = .ok (n : Int) := by
  obtain ⟨first, rest, leads, native⟩ := exists_digits_eq_cons n
  have unsigned : first ≠ '+' := ne_of_isDigit native (by decide)
  have positive : first ≠ '-' := ne_of_isDigit native (by decide)
  have taken := takeDigits_digits .tooLarge fits
  unfold parseSigned
  rw [toList_print]
  rw [leads] at taken ⊢
  split
  · rename_i same; cases same
  · rename_i same; cases same; exact absurd rfl unsigned
  · rename_i same; cases same; exact absurd rfl positive
  · rename_i same; cases same; exact absurd rfl unsigned
  · rename_i same; cases same; exact absurd rfl positive
  · rw [taken]; rfl

theorem parseSigned_plus {limit n : Nat} (fits : n ≤ limit) :
    parseSigned limit (String.ofList ('+' :: digits n)) = .ok (n : Int) := by
  obtain ⟨first, rest, leads, _⟩ := exists_digits_eq_cons n
  have taken := takeDigits_digits .tooLarge fits
  unfold parseSigned
  rw [String.toList_ofList]
  rw [leads] at taken ⊢
  change Except.map Int.ofNat (takeDigits limit .tooLarge (first :: rest) 0) = _
  rw [taken]
  rfl

theorem parseSigned_neg {limit n : Nat} (fits : n ≤ limit + 1) :
    parseSigned limit (String.ofList ('-' :: digits n)) = .ok (-(n : Int)) := by
  obtain ⟨first, rest, leads, _⟩ := exists_digits_eq_cons n
  have taken := takeDigits_digits .tooSmall fits
  unfold parseSigned
  rw [String.toList_ofList]
  rw [leads] at taken ⊢
  change Except.map (fun n : Int => -n)
    (takeDigits (limit + 1) .tooSmall (first :: rest) 0 >>= fun n => pure (n : Int)) = _
  rw [taken]
  rfl

/-- The characters of an integer: a sign if it is negative, and the digits of its size. -/
theorem toList_printInteger (value : Int) : (Json.printInteger value).toList =
    if value < 0 then '-' :: digits value.natAbs else digits value.natAbs := by
  unfold Json.printInteger
  split
  · rw [String.toList_append, toList_print]
    rfl
  · exact toList_print _

theorem parseSigned_printInteger {limit : Nat} {value : Int} (lower : -(limit + 1 : Int) ≤ value)
    (upper : value ≤ limit) : parseSigned limit (Json.printInteger value) = .ok value := by
  have text := congrArg String.ofList (toList_printInteger value)
  rw [String.ofList_toList] at text
  rw [text]
  split
  · rw [parseSigned_neg (by omega)]
    congr 1
    omega
  · rw [← toList_print, String.ofList_toList, parseSigned_print (by omega)]
    congr 1
    omega

end BatchAuction.Decimal
