import BatchAuction.Clock.Timestamp
import BatchAuction.Proofs.Decimal.Natural

/-!
# Timestamps are read back

Each part of the text of a timestamp is read back by the reader of that part, which leaves
what follows. The text has a fixed number of digits in every part but the year, whose
digits end at the mark before the month.
-/

set_option autoImplicit false

namespace BatchAuction.Clock.Timestamp

open Decimal

variable {α β : Type}

/-!
## Numbers of fixed width
-/

theorem length_padded {width value : Nat} (positive : 0 < width)
    (small : value < Nat.pow 10 width) : (padded width value).length = width := by
  have short := length_digits_le positive small
  simp only [padded, List.length_append, List.length_replicate]
  omega

theorem isDigit_of_mem_padded {width value : Nat} {c : Char} (among : c ∈ padded width value) :
    isDigit c = true := by
  rcases List.mem_append.mp among with zero | among
  · rw [(List.mem_replicate.mp zero).2]
    decide
  · exact isDigit_of_mem_digits among

theorem ofDigits_padded (width value : Nat) : ofDigits (padded width value) = value := by
  unfold padded
  rw [ofDigits_replicate_zero_append, ofDigits_digits]

theorem exists_padded_eq_cons (width value : Nat) :
    ∃ first rest, padded width value = first :: rest ∧ isDigit first = true := by
  cases leads : padded width value with
  | nil => exact absurd (List.append_eq_nil_iff.mp leads).2 (digits_ne_nil value)
  | cons first rest =>
      exact ⟨first, rest, rfl, isDigit_of_mem_padded (leads ▸ List.mem_cons_self)⟩

/-- The digits of a number end where its width is used up or a foreign character stands. -/
def Ends (cs rest : List Char) (width : Nat) : Prop :=
  cs.length = width ∨ cs.length ≤ width ∧ ∀ c ∈ rest.head?, isDigit c = false

private theorem moreDigits_append {width value : Nat} {cs rest : List Char}
    (native : ∀ c ∈ cs, isDigit c = true) (ends : Ends cs rest width)
    (bounded : cs.foldl (fun value c => value * 10 + digitValue c) value ≤ maxPart) :
    moreDigits width value (cs ++ rest) =
      .ok (cs.foldl (fun value c => value * 10 + digitValue c) value, rest) := by
  induction cs generalizing width value with
  | nil =>
      cases width with
      | zero => rfl
      | succ width =>
          have foreign := (ends.resolve_left nofun).2
          cases rest with
          | nil => rfl
          | cons c rest => simp [moreDigits, foreign c rfl]
  | cons c cs ih =>
      cases width with
      | zero => exact ends.elim nofun fun both => nomatch both.1
      | succ width =>
          have below := Nat.le_trans (le_foldl_digits cs (value * 10 + digitValue c)) bounded
          have endsLater : Ends cs rest width :=
            ends.imp Nat.succ.inj fun both => ⟨Nat.le_of_succ_le_succ both.1, both.2⟩
          rw [List.cons_append, moreDigits, native c List.mem_cons_self, if_neg (by decide),
            if_neg (by omega)]
          exact ih (fun other among => native other (.tail _ among)) endsLater bounded

theorem number_append {width : Nat} {cs : List Char} (rest : List Char) (nonempty : cs ≠ [])
    (native : ∀ c ∈ cs, isDigit c = true) (ends : Ends cs rest width)
    (bounded : ofDigits cs ≤ maxPart) : number width (cs ++ rest) = .ok (ofDigits cs, rest) := by
  match cs, width with
  | c :: cs, 0 => exact ends.elim nofun fun both => nomatch both.1
  | c :: cs, width + 1 =>
      have endsLater : Ends cs rest width :=
        ends.imp Nat.succ.inj fun both => ⟨Nat.le_of_succ_le_succ both.1, both.2⟩
      have first : ofDigits (c :: cs) =
          cs.foldl (fun value c => value * 10 + digitValue c) (digitValue c) := by
        rw [ofDigits, List.foldl_cons, Nat.zero_mul, Nat.zero_add]
      rw [first] at bounded ⊢
      rw [List.cons_append, number, native c List.mem_cons_self, if_pos rfl]
      exact moreDigits_append (fun other among => native other (.tail _ among)) endsLater bounded

/-- A number that fills its width is read back, whatever follows. -/
theorem number_padded {width value : Nat} (positive : 0 < width)
    (small : value < Nat.pow 10 width) (bounded : value ≤ maxPart) (rest : List Char) :
    number width (padded width value ++ rest) = .ok (value, rest) := by
  obtain ⟨first, others, leads, _⟩ := exists_padded_eq_cons width value
  have read := number_append rest (leads ▸ List.cons_ne_nil first others)
    (fun c among => isDigit_of_mem_padded among) (.inl (length_padded positive small))
    (by rwa [ofDigits_padded])
  rwa [ofDigits_padded] at read

/-!
## Parts
-/

theorem isBlank_of_isDigit {c : Char} (digit : isDigit c = true) : Text.isBlank c = false := by
  have range := isDigit_iff.mp digit
  unfold Text.isBlank
  simp only [Bool.or_eq_false_iff, Bool.and_eq_false_iff, decide_eq_false_iff_not]
  omega

theorem trimStart_cons {c : Char} (visible : Text.isBlank c = false) (rest : List Char) :
    Text.trimStart (c :: rest) = c :: rest := by
  rw [Text.trimStart, List.dropWhile_cons, visible, if_neg (by decide)]

theorem bind_apply {read : Reader α} {next : α → Reader β} {cs rest : List Char} {value : α}
    (reads : read cs = .ok (value, rest)) : (read >>= next) cs = next value rest := by
  change (read cs >>= fun pair => next pair.1 pair.2) = _
  rw [reads]
  rfl

theorem field_padded {low high value : Nat} (lower : low ≤ value) (upper : value ≤ high)
    (small : value < 100) (rest : List Char) :
    field low high (padded 2 value ++ rest) = .ok (value, rest) := by
  obtain ⟨first, others, leads, native⟩ := exists_padded_eq_cons 2 value
  have bounded : value ≤ maxPart := Nat.le_trans (Nat.le_of_lt small) (by decide)
  have trimmed : skipBlanks (padded 2 value ++ rest) = .ok ((), padded 2 value ++ rest) := by
    have same := trimStart_cons (isBlank_of_isDigit native) (others ++ rest)
    rw [leads]
    exact congrArg (fun cs => Except.ok ((), cs)) same
  have within : (value < low || high < value : Bool) = false := by
    simp [Nat.not_lt.mpr lower, Nat.not_lt.mpr upper]
  unfold field
  rw [bind_apply trimmed, bind_apply (number_padded (by decide) small bounded rest), within]
  rfl

theorem mark_cons {c : Char} (visible : Text.isBlank c = false) (rest : List Char) :
    mark c (c :: rest) = .ok ((), rest) := by
  unfold mark
  rw [trimStart_cons visible rest]
  exact if_pos rfl

/-- A number of any width is read back up to a mark. -/
theorem number_padded_mark (width : Nat) {value : Nat} (small : value ≤ maxPart)
    (rest : List Char) :
    number (padded width value ++ '-' :: rest).length (padded width value ++ '-' :: rest) =
      .ok (value, '-' :: rest) := by
  obtain ⟨first, others, leads, _⟩ := exists_padded_eq_cons width value
  have stops : Ends (padded width value) ('-' :: rest)
      (padded width value ++ '-' :: rest).length :=
    .inr ⟨by simp, by simp; decide⟩
  have read := number_append _ (leads ▸ List.cons_ne_nil first others)
    (fun c among => isDigit_of_mem_padded among) stops (by rwa [ofDigits_padded])
  rwa [ofDigits_padded] at read

private theorem unboundedYear_yearChars {year : Int} (lower : minYear ≤ year)
    (upper : year ≤ maxYear) (rest : List Char) :
    unboundedYear (yearChars year ++ '-' :: rest) = .ok (year, '-' :: rest) := by
  have least : minYear = -262143 := rfl
  have greatest : maxYear = 262142 := rfl
  have room : 262143 ≤ maxPart := by decide
  have size : year.natAbs ≤ maxPart := by omega
  have signed := number_padded_mark 4 size rest
  unfold yearChars
  by_cases plain : 0 ≤ year ∧ year ≤ 9999
  · obtain ⟨first, others, leads, native⟩ := exists_padded_eq_cons 4 year.toNat
    have unsigned : first ≠ '-' ∧ first ≠ '+' :=
      ⟨ne_of_isDigit native (by decide), ne_of_isDigit native (by decide)⟩
    have small : year.toNat < Nat.pow 10 4 := by change _ < 10000; omega
    have read := number_padded (by decide) small (by omega) ('-' :: rest)
    rw [if_pos plain]
    rw [leads] at read ⊢
    unfold unboundedYear
    rw [List.cons_append, trimStart_cons (isBlank_of_isDigit native) _]
    split
    · rename_i same; cases same; exact absurd rfl unsigned.1
    · rename_i same; cases same; exact absurd rfl unsigned.2
    · rw [← List.cons_append, read]
      simp only [Except.map]
      rw [Int.toNat_of_nonneg plain.1]
  · rw [if_neg plain]
    by_cases negative : year < 0
    · rw [if_pos negative]
      change (number (padded 4 year.natAbs ++ '-' :: rest).length
        (padded 4 year.natAbs ++ '-' :: rest)).map _ = _
      rw [signed]
      simp only [Except.map]
      congr 2
      omega
    · rw [if_neg negative]
      change (number (padded 4 year.natAbs ++ '-' :: rest).length
        (padded 4 year.natAbs ++ '-' :: rest)).map _ = _
      rw [signed]
      simp only [Except.map]
      congr 2
      omega

/-- The year is read back up to the mark before the month. -/
theorem yearPart_yearChars {year : Int} (lower : minYear ≤ year) (upper : year ≤ maxYear)
    (rest : List Char) :
    yearPart (yearChars year ++ '-' :: rest) = .ok (year, '-' :: rest) := by
  have least : minYear = -262143 := rfl
  have greatest : maxYear = 262142 := rfl
  have within : (year < Int32.minValue.toInt || Int32.maxValue.toInt < year : Bool) = false := by
    have lowest : Int32.minValue.toInt = -2147483648 := by decide
    have highest : Int32.maxValue.toInt = 2147483647 := by decide
    rw [lowest, highest]
    simp only [Bool.or_eq_false_iff, decide_eq_false_iff_not]
    omega
  unfold yearPart
  rw [bind_apply (unboundedYear_yearChars lower upper rest), within]
  rfl

/-- The characters of the fraction of a second, in groups of three digits. -/
def fractionChars (nanos : Nat) : List Char :=
  if nanos = 0 then []
  else if nanos % 1000000 = 0 then '.' :: padded 3 (nanos / 1000000)
  else if nanos % 1000 = 0 then '.' :: padded 6 (nanos / 1000)
  else '.' :: padded 9 nanos

/-- Digits of a fraction count from the point. -/
private theorem fraction_padded {width value : Nat} (positive : 0 < width) (narrow : width ≤ 9)
    (small : value < Nat.pow 10 width) :
    fraction ('.' :: padded width value ++ ['Z']) =
      .ok (value * Nat.pow 10 (9 - width), ['Z']) := by
  obtain ⟨first, others, leads, _⟩ := exists_padded_eq_cons width value
  have length := length_padded positive small
  have bounded : value ≤ maxPart := by
    have power : Nat.pow 10 width ≤ Nat.pow 10 9 := Nat.pow_le_pow_right (by decide) narrow
    have room : Nat.pow 10 9 ≤ maxPart := by decide
    omega
  have stops : Ends (padded width value) ['Z'] 9 :=
    .inr ⟨Nat.le_trans (Nat.le_of_eq length) narrow, by simp; decide⟩
  have read := number_append _ (leads ▸ List.cons_ne_nil first others)
    (fun c among => isDigit_of_mem_padded among) stops (by rwa [ofDigits_padded])
  have unfolded : fraction ('.' :: padded width value ++ ['Z']) =
      (number 9 (padded width value ++ ['Z'])).map fun cut =>
        (cut.1 * Nat.pow 10 (9 - ((padded width value ++ ['Z']).length - cut.2.length)),
          cut.2.dropWhile isDigit) := rfl
  rw [unfolded, read, ofDigits_padded]
  simp only [Except.map, List.length_append, length, Nat.add_sub_cancel]
  rfl

theorem fraction_fractionChars {nanos : Nat} (small : nanos < nanosPerSecond) :
    fraction (fractionChars nanos ++ ['Z']) = .ok (nanos, ['Z']) := by
  change nanos < 1000000000 at small
  unfold fractionChars
  split
  · rename_i none_eq
    rw [none_eq]
    rfl
  · split
    · rw [fraction_padded (by decide) (by decide) (by change _ < 1000; omega)]
      change Except.ok (nanos / 1000000 * 1000000, _) = _
      rw [Nat.div_mul_cancel (Nat.dvd_of_mod_eq_zero ‹_›)]
    · split
      · rw [fraction_padded (by decide) (by decide) (by change _ < 1000000; omega)]
        change Except.ok (nanos / 1000 * 1000, _) = _
        rw [Nat.div_mul_cancel (Nat.dvd_of_mod_eq_zero ‹_›)]
      · rw [fraction_padded (by decide) (by decide) (by change _ < 1000000000; omega)]
        change Except.ok (nanos * 1, _) = _
        rw [Nat.mul_one]

theorem separator_T (rest : List Char) : separator ('T' :: rest) = .ok ((), rest) := rfl

theorem offset_Z : offset ['Z'] = .ok (0, []) := rfl

/-!
## The whole text
-/

/-- The parts that a timestamp is written in. -/
def written (timestamp : Timestamp) : Parts where
  year := timestamp.date.year
  month := timestamp.date.month
  day := timestamp.date.day
  hour := timestamp.second / 3600
  minute := timestamp.second / 60 % 60
  second := timestamp.second % 60 + timestamp.nanos / nanosPerSecond
  nanos := timestamp.nanos % nanosPerSecond
  offset := 0

theorem toList_print (timestamp : Timestamp) : timestamp.print.toList =
    yearChars timestamp.date.year ++ '-' :: (padded 2 timestamp.date.month ++
      '-' :: (padded 2 timestamp.date.day ++ 'T' :: (padded 2 timestamp.written.hour ++
        ':' :: (padded 2 timestamp.written.minute ++ ':' :: (padded 2 timestamp.written.second ++
          (fractionChars timestamp.written.nanos ++ ['Z'])))))) := by
  have unfolded : timestamp.print =
      String.ofList (timestamp.secondsChars ++ fractionChars timestamp.written.nanos ++ ['Z']) :=
    rfl
  rw [unfolded, String.toList_ofList, secondsChars]
  simp only [List.append_assoc, List.cons_append, written]

theorem parts_print (timestamp : Timestamp) :
    parts timestamp.print.toList = .ok (timestamp.written, []) := by
  obtain ⟨yearLower, yearUpper, monthLower, monthUpper, dayLower, dayUpper⟩ :=
    timestamp.date.isDay
  have month : daysInMonth timestamp.date.year timestamp.date.month ≤ 31 := by
    unfold daysInMonth
    grind
  have second := timestamp.second_lt
  have nanos := timestamp.nanos_lt
  change timestamp.second < 86400 at second
  change timestamp.nanos < 2 * 1000000000 at nanos
  have hour : timestamp.written.hour ≤ 23 := by
    change timestamp.second / 3600 ≤ 23
    omega
  have minute : timestamp.written.minute ≤ 59 := by
    change timestamp.second / 60 % 60 ≤ 59
    omega
  -- Nanoseconds beyond a second stand for a leap second, which is written as second 60.
  have leap : timestamp.written.second ≤ 60 := by
    change timestamp.second % 60 + timestamp.nanos / 1000000000 ≤ 60
    omega
  have fraction : fraction (fractionChars timestamp.written.nanos ++ ['Z']) =
      .ok (timestamp.written.nanos, ['Z']) :=
    fraction_fractionChars (Nat.mod_lt _ (by decide))
  have blanks : ∀ rest, skipBlanks ('Z' :: rest) = .ok ((), 'Z' :: rest) := fun rest => rfl
  rw [toList_print]
  unfold parts
  rw [bind_apply (yearPart_yearChars yearLower yearUpper _), bind_apply (mark_cons rfl _),
    bind_apply (field_padded monthLower monthUpper (by omega) _), bind_apply (mark_cons rfl _),
    bind_apply (field_padded dayLower (by omega) (by omega) _), bind_apply (separator_T _),
    bind_apply (field_padded (Nat.zero_le _) hour (by omega) _), bind_apply (mark_cons rfl _),
    bind_apply (field_padded (Nat.zero_le _) minute (by omega) _), bind_apply (mark_cons rfl _),
    bind_apply (field_padded (Nat.zero_le _) leap (by omega) _), bind_apply fraction,
    bind_apply (blanks []), bind_apply offset_Z]
  rfl

/-- The written parts denote the timestamp they are of: a second 60 is the one that was
written for a leap second. -/
theorem ofParts_written (timestamp : Timestamp) : ofParts timestamp.written = .ok timestamp := by
  have date : Date.of? timestamp.written.year timestamp.written.month timestamp.written.day =
      some timestamp.date := dif_pos timestamp.date.isDay
  have near : ¬ secondsPerDay ≤ timestamp.written.offset.natAbs := by
    change ¬ 86400 ≤ 0
    decide
  have second := timestamp.second_lt
  have nanos := timestamp.nanos_lt
  have leapEnds := timestamp.leap_ends_minute
  change timestamp.second < 86400 at second
  change timestamp.nanos < 2 * 1000000000 at nanos
  change 1000000000 ≤ timestamp.nanos → _ at leapEnds
  have same : of? timestamp.date timestamp.second timestamp.nanos = some timestamp :=
    dif_pos ⟨timestamp.second_lt, timestamp.nanos_lt, timestamp.leap_ends_minute⟩
  have universal : toUniversal? timestamp.date timestamp.second timestamp.nanos 0 =
      some timestamp := by
    have later : ¬ (timestamp.second : Int) - 0 < 0 := by omega
    have sooner : ¬ ((secondsPerDay : Int) ≤ (timestamp.second : Int) - 0) := by
      change ¬ ((86400 : Int) ≤ _)
      omega
    unfold toUniversal?
    rw [if_neg later, if_neg sooner, Int.sub_zero, Int.toNat_natCast, same]
  -- The seconds and nanoseconds that are read are those that were held.
  have seconds : timestamp.written.hour * 3600 + timestamp.written.minute * 60 +
      (if timestamp.written.second = 60 then 59 else timestamp.written.second) =
        timestamp.second := by
    change timestamp.second / 3600 * 3600 + timestamp.second / 60 % 60 * 60 +
      (if timestamp.second % 60 + timestamp.nanos / 1000000000 = 60 then 59
        else timestamp.second % 60 + timestamp.nanos / 1000000000) = _
    split <;> omega
  have fractions : (if timestamp.written.second = 60 then
      timestamp.written.nanos + nanosPerSecond else timestamp.written.nanos) =
        timestamp.nanos := by
    change (if timestamp.second % 60 + timestamp.nanos / 1000000000 = 60 then
      timestamp.nanos % 1000000000 + 1000000000 else timestamp.nanos % 1000000000) = _
    split <;> omega
  unfold ofParts
  rw [date]
  dsimp only
  rw [if_neg near, seconds, fractions]
  have utc : timestamp.written.offset = 0 := rfl
  rw [utc, universal]

theorem parse_print (timestamp : Timestamp) : parse timestamp.print = .ok timestamp := by
  unfold parse
  change (parts timestamp.print.toList >>= _) = _
  rw [parts_print]
  exact ofParts_written timestamp

end BatchAuction.Clock.Timestamp
