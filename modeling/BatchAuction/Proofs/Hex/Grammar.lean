import BatchAuction.Proofs.Hex
import BatchAuction.Wire.Scalar

/-!
# The grammar of hex text

The texts that are read as bytes are described without the reader: the mark `0x` and behind
it hex digits of either letter case, two for each byte. Every other text is refused for one
reason. Two texts stand for the same bytes just if they differ in letter case only.
-/

set_option autoImplicit false

namespace BatchAuction.Hex

/-- A decimal digit or one of the first six letters in either case. -/
def IsHexDigit (c : Char) : Prop :=
  48 ≤ c.toNat ∧ c.toNat ≤ 57 ∨ 65 ≤ c.toNat ∧ c.toNat ≤ 70 ∨ 97 ≤ c.toNat ∧ c.toNat ≤ 102

instance (c : Char) : Decidable (IsHexDigit c) := inferInstanceAs (Decidable (_ ∨ _))

/-- The place of a digit among the sixteen, where capitals count as small letters. -/
def placeOf (c : Char) : Nat := "0123456789abcdef".toList.idxOf c.toLower

/-- The bytes that pairs of digits denote, the first digit of a pair being the heavier. -/
def denoted : List Char → List UInt8
  | high :: low :: rest => UInt8.ofNat (16 * placeOf high + placeOf low) :: denoted rest
  | _ => []

/-- The texts that stand for bytes. -/
def IsHexText (cs : List Char) : Prop :=
  ∃ digits, cs = '0' :: 'x' :: digits ∧ (∀ c ∈ digits, IsHexDigit c) ∧ digits.length % 2 = 0

/-- The other texts, each with the reason that is given for it. -/
inductive Refused : List Char → ParseError → Prop where
  | unmarked {cs : List Char} :
      (∀ digits, cs ≠ '0' :: 'x' :: digits) → Refused cs .missingPrefix
  | foreign {before after : List Char} {c : Char} :
      (∀ earlier ∈ before, IsHexDigit earlier) → ¬ IsHexDigit c →
      Refused ('0' :: 'x' :: (before ++ c :: after)) (.invalidDigit c)
  | odd {digits : List Char} :
      (∀ c ∈ digits, IsHexDigit c) → digits.length % 2 = 1 →
      Refused ('0' :: 'x' :: digits) .oddLength

/-!
## Digits
-/

private theorem asciiDigits : ∀ code < 128,
    digitValue? (Char.ofNat code) =
        (if IsHexDigit (Char.ofNat code) then some (placeOf (Char.ofNat code)) else none) ∧
      (IsHexDigit (Char.ofNat code) →
        lowered (Char.ofNat code) = (Char.ofNat code).toLower) := by
  decide +kernel

theorem IsHexDigit.toNat_lt {c : Char} (digit : IsHexDigit c) : c.toNat < 128 := by
  unfold IsHexDigit at digit
  omega

theorem digitValue?_of_isHexDigit {c : Char} (digit : IsHexDigit c) :
    digitValue? c = some (placeOf c) := by
  have value := (asciiDigits c.toNat digit.toNat_lt).1
  simpa [digit] using value

theorem digitValue?_of_not_isHexDigit {c : Char} (foreign : ¬ IsHexDigit c) :
    digitValue? c = none := by
  by_cases ascii : c.toNat < 128
  · have value := (asciiDigits c.toNat ascii).1
    simpa [foreign] using value
  · exact digitValue?_of_beyond ascii

theorem lowered_of_isHexDigit {c : Char} (digit : IsHexDigit c) : lowered c = c.toLower := by
  have lower := (asciiDigits c.toNat digit.toNat_lt).2
  simpa [digit] using lower

theorem eq_nil_or_singleton {cs : List Char}
    (short : ∀ high low rest, cs = high :: low :: rest → False) : cs = [] ∨ ∃ c, cs = [c] := by
  cases cs with
  | nil => exact .inl rfl
  | cons high others =>
      cases others with
      | nil => exact .inr ⟨high, rfl⟩
      | cons low rest => exact (short high low rest rfl).elim

/-- The induction is on pairs of digits, as they are read. -/
theorem bytesOfDigits_of_digits (digits : List Char) (native : ∀ c ∈ digits, IsHexDigit c) :
    bytesOfDigits digits =
      if digits.length % 2 = 0 then .ok (denoted digits) else .error .oddLength := by
  induction digits using denoted.induct with
  | case1 high low rest ih =>
      have highValue := digitValue?_of_isHexDigit (native high (by simp))
      have lowValue := digitValue?_of_isHexDigit (native low (by simp))
      have others := ih fun c among => native c (by simp [among])
      have parity : (high :: low :: rest).length % 2 = rest.length % 2 :=
        Nat.add_mod_right rest.length 2
      simp only [bytesOfDigits, highValue, lowValue, others, parity, denoted,
        Nat.mul_comm 16 (placeOf high)]
      split <;> rfl
  | case2 cs short =>
      obtain rfl | ⟨c, rfl⟩ := eq_nil_or_singleton short
      · rfl
      · simp [bytesOfDigits, digitValue?_of_isHexDigit (native c (by simp))]

/-- A foreign character is named, whatever stands behind it and however many digits there
are. -/
theorem bytesOfDigits_of_foreign {c : Char} (foreign : ¬ IsHexDigit c) (after : List Char)
    (before : List Char) (native : ∀ earlier ∈ before, IsHexDigit earlier) :
    bytesOfDigits (before ++ c :: after) = .error (.invalidDigit c) := by
  have value := digitValue?_of_not_isHexDigit foreign
  induction before using denoted.induct with
  | case1 high low rest ih =>
      have highValue := digitValue?_of_isHexDigit (native high (by simp))
      have lowValue := digitValue?_of_isHexDigit (native low (by simp))
      have others := ih fun earlier among => native earlier (by simp [among])
      simp only [List.cons_append, bytesOfDigits, highValue, lowValue, others]
      rfl
  | case2 cs short =>
      obtain rfl | ⟨high, rfl⟩ := eq_nil_or_singleton short
      · cases after <;> simp [bytesOfDigits, value]
      · simp [bytesOfDigits, digitValue?_of_isHexDigit (native high (by simp)), value]

theorem length_denoted (digits : List Char) (even : digits.length % 2 = 0) :
    2 * (denoted digits).length = digits.length := by
  induction digits using denoted.induct with
  | case1 high low rest ih =>
      have others := ih ((Nat.add_mod_right rest.length 2).symm.trans even)
      simp only [denoted, List.length_cons]
      omega
  | case2 cs short =>
      obtain rfl | ⟨c, rfl⟩ := eq_nil_or_singleton short
      · rfl
      · simp at even

/-!
## Texts
-/

theorem isHexText_or_refused (cs : List Char) : IsHexText cs ∨ ∃ error, Refused cs error := by
  by_cases marked : ∃ digits, cs = '0' :: 'x' :: digits
  · obtain ⟨digits, rfl⟩ := marked
    cases found : digits.find? (fun c => !decide (IsHexDigit c)) with
    | some c =>
        obtain ⟨foreign, before, after, rfl, native⟩ :=
          List.find?_eq_some_iff_append.mp found
        refine .inr ⟨_, .foreign (fun earlier among => ?_) (by simpa using foreign)⟩
        simpa using native earlier among
    | none =>
        have native : ∀ c ∈ digits, IsHexDigit c := by simpa using found
        rcases Nat.mod_two_eq_zero_or_one digits.length with even | odd
        · exact .inl ⟨digits, rfl, native, even⟩
        · exact .inr ⟨_, .odd native odd⟩
  · exact .inr ⟨_, .unmarked fun digits same => marked ⟨digits, same⟩⟩

theorem IsHexText.parseChars {cs : List Char} (text : IsHexText cs) :
    parseChars cs = .ok (denoted (cs.drop 2)) := by
  obtain ⟨digits, rfl, native, even⟩ := text
  exact (bytesOfDigits_of_digits digits native).trans (if_pos even)

theorem Refused.parseChars {cs : List Char} {error : ParseError} (refused : Refused cs error) :
    parseChars cs = .error error := by
  cases refused with
  | unmarked foreign =>
      unfold Hex.parseChars
      split
      · exact absurd rfl (foreign _)
      · rfl
  | foreign native foreign => exact bytesOfDigits_of_foreign foreign _ _ native
  | @odd digits native odd =>
      exact (bytesOfDigits_of_digits digits native).trans (if_neg (by omega))

theorem parse_eq_ok_iff_denoted {s : String} {bytes : List UInt8} :
    parse s = .ok bytes ↔ IsHexText s.toList ∧ denoted (s.toList.drop 2) = bytes := by
  unfold parse
  constructor
  · intro read
    rcases isHexText_or_refused s.toList with text | ⟨error, refused⟩
    · rw [text.parseChars] at read
      exact ⟨text, Except.ok.inj read⟩
    · simp [refused.parseChars] at read
  · intro holds
    obtain ⟨text, rfl⟩ := holds
    exact text.parseChars

theorem parse_eq_error_iff {s : String} {error : ParseError} :
    parse s = .error error ↔ Refused s.toList error := by
  unfold parse
  constructor
  · intro read
    rcases isHexText_or_refused s.toList with text | ⟨other, refused⟩
    · simp [text.parseChars] at read
    · rw [refused.parseChars] at read
      cases read
      exact refused
  · exact Refused.parseChars

theorem parseFixed_eq_ok_iff_parse {size : Nat} {s : String} {value : FixedBytes size} :
    parseFixed size s = .ok value ↔ parse s = .ok value.bytes :=
  parseFixed_eq_ok_iff.trans parse_eq_ok_iff.symm

/-- Bytes of the wrong number are refused by a reader of fixed size only. -/
theorem parseFixed_eq_error_iff {size : Nat} {s : String} {error : ParseError} :
    parseFixed size s = .error error ↔
      parse s = .error error ∨
        ∃ bytes, parse s = .ok bytes ∧ bytes.length ≠ size ∧
          error = .invalidLength (2 * size) (2 * bytes.length) := by
  unfold parseFixed
  cases parse s with
  | error other => simp [bind, Except.bind]
  | ok bytes =>
      by_cases sized : bytes.length = size
      · simp [bind, Except.bind, sized, pure, Except.pure]
      · simp [bind, Except.bind, sized, throw, throwThe, MonadExceptOf.throw,
          eq_comm (b := error)]

theorem exists_parse_iff {s : String} :
    (∃ bytes, parse s = .ok bytes) ↔ IsHexText s.toList := by
  simp [parse_eq_ok_iff_denoted]

/-!
## Letter case
-/

theorem IsHexText.map_lowered {cs : List Char} (text : IsHexText cs) :
    cs.map lowered = cs.map Char.toLower := by
  obtain ⟨digits, rfl, native, -⟩ := text
  have same : digits.map lowered = digits.map Char.toLower :=
    List.map_congr_left fun c among => lowered_of_isHexDigit (native c among)
  rw [List.map_cons, List.map_cons, same]
  rfl

theorem toList_toLower (s : String) : s.toLower.toList = s.toList.map Char.toLower :=
  String.toList_map

/-- What was read is written again in lower case. -/
theorem print_eq_toLower {s : String} {bytes : List UInt8} (read : parse s = .ok bytes) :
    print bytes = s.toLower := by
  have text := exists_parse_iff.mp ⟨bytes, read⟩
  apply String.toList_inj.mp
  rw [← parse_eq_ok_iff.mp read, text.map_lowered, toList_toLower]

theorem parse_eq_parse_iff {s other : String} (text : IsHexText s.toList)
    (otherText : IsHexText other.toList) :
    parse s = parse other ↔ s.toLower = other.toLower := by
  obtain ⟨bytes, read⟩ := exists_parse_iff.mpr text
  obtain ⟨otherBytes, otherRead⟩ := exists_parse_iff.mpr otherText
  rw [read, otherRead, ← print_eq_toLower read, ← print_eq_toLower otherRead]
  constructor
  · intro same
    rw [Except.ok.inj same]
  · intro same
    rw [← parse_print bytes, same, parse_print]

/-- Hex text is read from the mark and an even number of digits in any letter case, and from
nothing else; every other text is refused for its own reason. A reader of fixed size takes
the same texts as long as they have its size. What is emitted is read back, and what was read
is emitted in lower case. -/
theorem reads_exactly_marked_pairs (s : String) (size : Nat) :
    ((∃ bytes, parse s = .ok bytes) ↔ IsHexText s.toList) ∧
    (∀ bytes, parse s = .ok bytes ↔
      IsHexText s.toList ∧ denoted (s.toList.drop 2) = bytes) ∧
    (∀ error, parse s = .error error ↔ Refused s.toList error) ∧
    ((∃ value, parseFixed size s = .ok value) ↔
      ∃ bytes, parse s = .ok bytes ∧ bytes.length = size) ∧
    (∀ value, parseFixed size s = .ok value ↔ parse s = .ok value.bytes) ∧
    (∀ error, parseFixed size s = .error error ↔
      Refused s.toList error ∨
        IsHexText s.toList ∧ (s.toList.drop 2).length ≠ 2 * size ∧
          error = .invalidLength (2 * size) (s.toList.drop 2).length) ∧
    (∀ bytes, ∃ text,
      Wire.Codec.bytes.encode bytes = .text text ∧ parse text = .ok bytes) ∧
    (∀ value, ∃ text,
      (Wire.Codec.fixedBytes size).encode value = .text text ∧
        parseFixed size text = .ok value) ∧
    (∀ bytes, parse s = .ok bytes → Wire.Codec.bytes.encode bytes = .text s.toLower) ∧
    (∀ other, IsHexText s.toList → IsHexText other.toList →
      (parse s = parse other ↔ s.toLower = other.toLower)) ∧
    (∀ token : Address, parseAddress token.print = .ok token) ∧
    (∀ uid : OrderUid, parseFixed 56 uid.print = .ok uid) := by
  refine ⟨exists_parse_iff, fun bytes => parse_eq_ok_iff_denoted,
    fun error => parse_eq_error_iff, ?_, fun value => parseFixed_eq_ok_iff_parse, fun error => ?_,
    fun bytes => ⟨_, rfl, parse_print bytes⟩, fun value => ⟨_, rfl, parseFixed_print value⟩,
    fun bytes read => congrArg Json.text (print_eq_toLower read),
    fun other => parse_eq_parse_iff, parseAddress_print, parseFixed_print⟩
  · constructor
    · intro holds
      obtain ⟨value, read⟩ := holds
      exact ⟨value.bytes, parseFixed_eq_ok_iff_parse.mp read, value.length_bytes⟩
    · intro holds
      obtain ⟨bytes, read, sized⟩ := holds
      exact ⟨⟨bytes, sized⟩, parseFixed_eq_ok_iff_parse.mpr read⟩
  · rw [parseFixed_eq_error_iff, parse_eq_error_iff]
    refine or_congr Iff.rfl ?_
    simp only [parse_eq_ok_iff_denoted, and_assoc, exists_and_left, exists_eq_left']
    refine and_congr_right fun text => ?_
    have doubled : 2 * (denoted (s.toList.drop 2)).length = (s.toList.drop 2).length := by
      obtain ⟨digits, same, -, even⟩ := text
      rw [same]
      exact length_denoted digits even
    rw [← doubled]
    refine and_congr_left' ?_
    omega

/-- Digits of mixed letter case stand for the bytes that the same digits in lower case stand
for. -/
theorem mixed_case_reads_alike :
    parse "0xdeadBEEF" = .ok [0xde, 0xad, 0xbe, 0xef] ∧
      Wire.Codec.bytes.encode [0xde, 0xad, 0xbe, 0xef] = .text "0xdeadbeef" ∧
      parse "0xdeadBEEF" = parse "0xDEADbeef" := by
  have read : parse "0xdeadBEEF" = .ok [0xde, 0xad, 0xbe, 0xef] := by rfl
  have otherRead : parse "0xDEADbeef" = .ok [0xde, 0xad, 0xbe, 0xef] := by rfl
  obtain ⟨accepted, -, -, -, -, -, -, -, emitted, alike, -⟩ :=
    reads_exactly_marked_pairs "0xdeadBEEF" 4
  have lower : "0xdeadBEEF".toLower = "0xdeadbeef" := by
    apply String.toList_inj.mp
    simp [toList_toLower]
  have otherLower : "0xDEADbeef".toLower = "0xdeadbeef" := by
    apply String.toList_inj.mp
    simp [toList_toLower]
  refine ⟨read, lower ▸ emitted _ read, ?_⟩
  exact (alike "0xDEADbeef" (accepted.mp ⟨_, read⟩) (exists_parse_iff.mp ⟨_, otherRead⟩)).mpr
    (lower.trans otherLower.symm)

end BatchAuction.Hex
