import BatchAuction.Hex

/-!
# Hex text is read back

A text denotes some bytes just if it is the text that is written for them, up to the letter
case of its digits.
-/

set_option autoImplicit false

namespace BatchAuction.Hex

/-- Each of the sixteen digits is read back as its own value. -/
theorem digitValue?_hexDigit : ∀ value < 16, digitValue? (Text.hexDigit value) = some value := by
  decide

theorem bytesOfDigits_digits (bytes : List UInt8) : bytesOfDigits (digits bytes) = .ok bytes := by
  induction bytes with
  | nil => rfl
  | cons byte rest ih =>
      have small : byte.toNat < 256 := byte.toNat_lt
      have high := digitValue?_hexDigit (byte.toNat / 16) (by omega)
      have low := digitValue?_hexDigit (byte.toNat % 16) (by omega)
      have whole : byte.toNat / 16 * 16 + byte.toNat % 16 = byte.toNat := by omega
      have unfolded : digits (byte :: rest) = Text.hexDigit (byte.toNat / 16) ::
        Text.hexDigit (byte.toNat % 16) :: digits rest := rfl
      rw [unfolded, bytesOfDigits]
      simp only [high, low, ih, whole, UInt8.ofNat_toNat]
      rfl

theorem parse_print (bytes : List UInt8) : parse (print bytes) = .ok bytes := by
  unfold parse print
  rw [String.toList_ofList]
  exact bytesOfDigits_digits bytes

theorem parseFixed_print {size : Nat} (value : FixedBytes size) :
    parseFixed size value.print = .ok value := by
  have read : parse value.print = .ok value.bytes := parse_print value.bytes
  unfold parseFixed
  rw [read]
  exact dif_pos value.length_bytes

theorem parseAddress_print (address : Address) : parseAddress address.print = .ok address :=
  parseFixed_print address

/-!
## The texts of some bytes
-/

/-- A hex digit in lower case; all else stays. -/
def lowered (c : Char) : Char := if 'A' ≤ c && c ≤ 'F' then Char.ofNat (c.toNat + 32) else c

private theorem not_le_of_ascii {c bound : Char} (beyond : ¬ c.toNat < 128)
    (ascii : bound.toNat < 128) : ¬ c ≤ bound := fun within =>
  beyond (Nat.lt_of_le_of_lt (UInt32.le_iff_toNat_le.mp (Char.le_def.mp within)) ascii)

private theorem lowered_of_beyond {c : Char} (beyond : ¬ c.toNat < 128) : lowered c = c := by
  have above : ¬ c ≤ 'F' := not_le_of_ascii beyond (by decide)
  simp [lowered, above]

theorem digitValue?_of_beyond {c : Char} (beyond : ¬ c.toNat < 128) :
    digitValue? c = none := by
  have aboveDigits : ¬ c ≤ '9' := not_le_of_ascii beyond (by decide)
  have aboveSmall : ¬ c ≤ 'f' := not_le_of_ascii beyond (by decide)
  have aboveCapitals : ¬ c ≤ 'F' := not_le_of_ascii beyond (by decide)
  simp [digitValue?, aboveDigits, aboveSmall, aboveCapitals]

private theorem digits_of_ascii : ∀ code < 128,
    (∀ value < 16, digitValue? (Char.ofNat code) = some value ↔
      lowered (Char.ofNat code) = Text.hexDigit value) ∧
    (∀ value ∈ digitValue? (Char.ofNat code), value < 16) ∧
    (lowered (Char.ofNat code) = '0' ↔ Char.ofNat code = '0') ∧
    (lowered (Char.ofNat code) = 'x' ↔ Char.ofNat code = 'x') := by
  decide +kernel

/-- A character is read as a digit just if it is the digit in some letter case. -/
theorem digitValue?_eq_some_iff {c : Char} {value : Nat} :
    digitValue? c = some value ↔ value < 16 ∧ lowered c = Text.hexDigit value := by
  by_cases ascii : c.toNat < 128
  · obtain ⟨digit, small, _⟩ := digits_of_ascii c.toNat ascii
    rw [Char.ofNat_toNat] at digit small
    constructor
    · exact fun read => ⟨small value read, (digit value (small value read)).mp read⟩
    · exact fun ⟨few, same⟩ => (digit value few).mpr same
  · rw [digitValue?_of_beyond ascii, lowered_of_beyond ascii]
    have low : ∀ value < 16, (Text.hexDigit value).toNat < 128 := by decide
    refine iff_of_false nofun ?_
    rintro ⟨few, rfl⟩
    exact ascii (low value few)

/-- The mark in front of the digits has one spelling. -/
private theorem lowered_eq_mark_iff {c mark : Char} (among : mark ∈ ['0', 'x']) :
    lowered c = mark ↔ c = mark := by
  by_cases ascii : c.toNat < 128
  · obtain ⟨_, _, zero, x⟩ := digits_of_ascii c.toNat ascii
    rw [Char.ofNat_toNat] at zero x
    rcases List.mem_cons.mp among with rfl | last
    · exact zero
    · exact List.mem_singleton.mp last ▸ x
  · rw [lowered_of_beyond ascii]

private theorem digits_cons (byte : UInt8) (rest : List UInt8) :
    digits (byte :: rest) = Text.hexDigit (byte.toNat / 16) ::
      Text.hexDigit (byte.toNat % 16) :: digits rest := rfl

/-- The first two characters are read as the digits of the first byte. -/
private theorem bytesOfDigits_pair_eq_ok_iff {high low : Char} {rest : List Char}
    {bytes : List UInt8} :
    bytesOfDigits (high :: low :: rest) = .ok bytes ↔
      ∃ byte others, bytes = byte :: others ∧ digitValue? high = some (byte.toNat / 16) ∧
        digitValue? low = some (byte.toNat % 16) ∧ bytesOfDigits rest = .ok others := by
  rw [bytesOfDigits]
  constructor
  · intro read
    cases highRead : digitValue? high with
    | none => rw [highRead] at read; cases read
    | some h =>
        cases lowRead : digitValue? low with
        | none => rw [highRead, lowRead] at read; cases read
        | some l =>
            rw [highRead, lowRead] at read
            cases others : bytesOfDigits rest with
            | error error => rw [others] at read; cases read
            | ok values =>
                rw [others] at read
                cases read
                have hSmall := (digitValue?_eq_some_iff.mp highRead).1
                have lSmall := (digitValue?_eq_some_iff.mp lowRead).1
                have whole : (UInt8.ofNat (h * 16 + l)).toNat = h * 16 + l :=
                  Nat.mod_eq_of_lt (by omega)
                refine ⟨_, values, rfl, ?_, ?_, rfl⟩
                · exact congrArg some (by omega)
                · exact congrArg some (by omega)
  · rintro ⟨byte, values, rfl, highRead, lowRead, others⟩
    have small := byte.toNat_lt
    have whole : byte.toNat / 16 * 16 + byte.toNat % 16 = byte.toNat := by omega
    rw [highRead, lowRead, others]
    simp only [whole, UInt8.ofNat_toNat]
    rfl

theorem bytesOfDigits_eq_ok_iff : ∀ {characters : List Char} {bytes : List UInt8},
    bytesOfDigits characters = .ok bytes ↔ characters.map lowered = digits bytes
  | [], bytes => by
      cases bytes with
      | nil => exact iff_of_true rfl rfl
      | cons byte rest => exact iff_of_false nofun nofun
  | [c], bytes => by
      have odd : [c].map lowered ≠ digits bytes := by
        cases bytes with
        | nil => nofun
        | cons byte rest => exact fun same => nomatch (List.cons.inj same).2
      rw [bytesOfDigits]
      cases digitValue? c <;> exact iff_of_false nofun odd
  | high :: low :: rest, bytes => by
      rw [bytesOfDigits_pair_eq_ok_iff, List.map_cons, List.map_cons]
      constructor
      · rintro ⟨byte, others, rfl, highRead, lowRead, read⟩
        rw [digits_cons, (digitValue?_eq_some_iff.mp highRead).2,
          (digitValue?_eq_some_iff.mp lowRead).2, bytesOfDigits_eq_ok_iff.mp read]
      · intro same
        cases bytes with
        | nil => cases same
        | cons byte others =>
            have small := byte.toNat_lt
            rw [digits_cons] at same
            obtain ⟨highSame, same⟩ := List.cons.inj same
            obtain ⟨lowSame, same⟩ := List.cons.inj same
            exact ⟨byte, others, rfl, digitValue?_eq_some_iff.mpr ⟨by omega, highSame⟩,
              digitValue?_eq_some_iff.mpr ⟨by omega, lowSame⟩, bytesOfDigits_eq_ok_iff.mpr same⟩

theorem parse_eq_ok_iff {text : String} {bytes : List UInt8} :
    parse text = .ok bytes ↔ text.toList.map lowered = (print bytes).toList := by
  unfold parse print
  rw [String.toList_ofList]
  constructor
  · intro read
    unfold parseChars at read
    split at read
    · rename_i rest marked
      rw [marked, List.map_cons, List.map_cons, bytesOfDigits_eq_ok_iff.mp read]
      rfl
    · cases read
  · intro same
    obtain ⟨first, others, split, zero, same⟩ := List.map_eq_cons_iff.mp same
    obtain ⟨second, rest, rfl, mark, same⟩ := List.map_eq_cons_iff.mp same
    rw [lowered_eq_mark_iff (by decide)] at zero mark
    rw [split, zero, mark, parseChars]
    exact bytesOfDigits_eq_ok_iff.mpr same

theorem parseFixed_eq_ok_iff {size : Nat} {text : String} {value : FixedBytes size} :
    parseFixed size text = .ok value ↔ text.toList.map lowered = value.print.toList := by
  have printed : value.print = print value.bytes := rfl
  rw [printed, ← parse_eq_ok_iff]
  unfold parseFixed
  cases parse text with
  | error error => exact iff_of_false nofun nofun
  | ok bytes =>
      obtain ⟨wanted, sized⟩ := value
      constructor
      · intro read
        change dite _ _ _ = _ at read
        split at read
        · cases read; rfl
        · cases read
      · intro same
        cases same
        exact dif_pos sized

/-- A text is read as an address just if it is the text of the address in some letter case. -/
theorem parseAddress_eq_ok_iff {text : String} {address : Address} :
    parseAddress text = .ok address ↔ text.toList.map lowered = address.print.toList :=
  parseFixed_eq_ok_iff

end BatchAuction.Hex
