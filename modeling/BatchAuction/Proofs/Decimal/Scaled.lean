import BatchAuction.Decimal.Scaled
import BatchAuction.Proofs.Decimal.Natural
import Mathlib.Algebra.Order.Field.Rat
import Mathlib.Algebra.GroupWithZero.Basic

/-!
# Scaled decimals are read back as the same number

A text is a sign, digits before the point, digits after it and an exponent, of which the
last two may be missing. Every form of writing is one of these, so one lemma reads them
all. Only a zero, and a number that is written out with the zeros its scale stands for,
come back with another scale.
-/

set_option autoImplicit false

namespace BatchAuction.Decimal.Scaled

/-- The number that a scaled decimal stands for. -/
def toRat (value : Scaled) : ℚ := value.unscaled * (10 : ℚ) ^ (-value.scale)

/-- What is read back: zeros lose their scale, and zeros that are written out are digits
afterwards. -/
def restored (value : Scaled) : Scaled :=
  if value.unscaled = 0 then ofInt 0
  else if 0 ≤ -value.scale ∧ -value.scale ≤ maxTrailingZeros then
    ofInt (value.unscaled * (Nat.pow 10 (-value.scale).toNat : Nat))
  else value

theorem toRat_restored (value : Scaled) : value.restored.toRat = value.toRat := by
  unfold restored
  split
  · rename_i zero
    simp [toRat, ofInt, zero]
  · split
    · rename_i _ bounds
      have exponent : ((-value.scale).toNat : Int) = -value.scale := Int.toNat_of_nonneg bounds.1
      have power : ((Nat.pow 10 (-value.scale).toNat : Nat) : ℚ) = (10 : ℚ) ^ (-value.scale) := by
        rw [← exponent, zpow_natCast]
        exact Nat.cast_pow 10 _
      unfold toRat ofInt
      rw [neg_zero, zpow_zero, mul_one, Int.cast_mul, Int.cast_natCast, power]
    · rfl

/-!
## Reading the parts of a text
-/

section Splitting

variable {p : Char → Bool} {before : List Char}

theorem splitAtFirst_of_clean (clean : ∀ c ∈ before, p c = false) :
    splitAtFirst p before = (before, none) := by
  induction before with
  | nil => rfl
  | cons c rest ih =>
      rw [splitAtFirst, clean c List.mem_cons_self, if_neg (by decide),
        ih fun other among => clean other (.tail _ among)]

theorem splitAtFirst_append {c : Char} {after : List Char}
    (clean : ∀ c ∈ before, p c = false) (hit : p c = true) :
    splitAtFirst p (before ++ c :: after) = (before, some after) := by
  induction before with
  | nil => rw [List.nil_append, splitAtFirst, if_pos hit]
  | cons first rest ih =>
      rw [List.cons_append, splitAtFirst, clean first List.mem_cons_self, if_neg (by decide),
        ih fun other among => clean other (.tail _ among)]

end Splitting

/-- The sign of a text. -/
def signChars (negative : Bool) : List Char := if negative then ['-'] else []

/-- The point and the digits after it. -/
def trailChars : Option (List Char) → List Char
  | none => []
  | some trail => '.' :: trail

/-- The exponent after its mark. -/
def exponentChars : Option (Char × Int) → List Char
  | none => []
  | some (exponentMark, exponent) => exponentMark :: signedExponent exponent

theorem parseDigits_of_isDigit {cs : List Char} (nonempty : cs ≠ [])
    (native : ∀ c ∈ cs, isDigit c = true) : parseDigits cs = .ok (ofDigits cs) := by
  have kept : cs.filter (fun c => c ≠ '_') = cs :=
    List.filter_eq_self.mpr fun c among => by simpa using ne_of_isDigit (native c among) rfl
  have all : cs.all isDigit = true := List.all_eq_true.mpr native
  cases cs with
  | nil => exact absurd rfl nonempty
  | cons first rest =>
      have plain : first ≠ '_' := ne_of_isDigit (native first List.mem_cons_self) rfl
      unfold parseDigits
      split
      · rename_i same; cases same
      · rename_i same; cases same; exact absurd rfl plain
      · rw [kept, if_pos all]

theorem parseMagnitude_of_isDigit {cs : List Char} (nonempty : cs ≠ [])
    (native : ∀ c ∈ cs, isDigit c = true) : parseMagnitude cs = .ok (ofDigits cs) := by
  have read := parseDigits_of_isDigit nonempty native
  cases cs with
  | nil => exact absurd rfl nonempty
  | cons first rest =>
      have unsigned : first ≠ '+' := ne_of_isDigit (native first List.mem_cons_self) rfl
      unfold parseMagnitude
      split
      · rename_i same; cases same; exact absurd rfl unsigned
      · rename_i same; cases same; exact absurd rfl unsigned
      · exact read

theorem parseUnscaled_sign {negative : Bool} {cs : List Char} (nonempty : cs ≠ [])
    (native : ∀ c ∈ cs, isDigit c = true) : parseUnscaled (signChars negative ++ cs) =
      .ok (if negative then -(ofDigits cs : Int) else ofDigits cs) := by
  have read := parseMagnitude_of_isDigit nonempty native
  cases cs with
  | nil => exact absurd rfl nonempty
  | cons first rest =>
      have unsigned : first ≠ '+' := ne_of_isDigit (native first List.mem_cons_self) rfl
      have positive : first ≠ '-' := ne_of_isDigit (native first List.mem_cons_self) rfl
      cases negative with
      | true =>
          change parseUnscaled ('-' :: first :: rest) = _
          unfold parseUnscaled
          split
          · rename_i same; cases same; exact absurd rfl unsigned
          · rename_i same; cases same; rw [read]; rfl
          · rename_i other; exact absurd rfl (other (first :: rest))
      | false =>
          change parseUnscaled (first :: rest) = _
          unfold parseUnscaled
          split
          · rename_i same; cases same; exact absurd rfl positive
          · rename_i same; cases same; exact absurd rfl positive
          · rw [read]; rfl

theorem parseSigned_signedExponent {exponent : Int} (small : exponent.natAbs ≤ maxExponent) :
    parseSigned maxExponent (String.ofList (signedExponent exponent)) = .ok exponent := by
  unfold signedExponent
  by_cases negative : exponent < 0
  · rw [if_pos negative, parseSigned_neg (Nat.le_succ_of_le small)]
    congr 1
    omega
  · rw [if_neg negative, parseSigned_plus small]
    congr 1
    omega

/-- The characters of a sign, digits before the point, and perhaps digits after it and an
exponent. -/
def textChars (negative : Bool) (lead : List Char) (trail : Option (List Char))
    (exponent : Option (Char × Int)) : List Char :=
  signChars negative ++ lead ++ trailChars trail ++ exponentChars exponent

private theorem splitAtFirst_exponent {base : List Char} {exponent : Option (Char × Int)}
    (clean : ∀ c ∈ base, (c = 'e' || c = 'E' : Bool) = false)
    (mark : ∀ pair ∈ exponent, pair.1 = 'e' ∨ pair.1 = 'E') :
    splitAtFirst (fun c => c = 'e' || c = 'E') (base ++ exponentChars exponent) =
      (base, exponent.map fun pair => signedExponent pair.2) := by
  cases exponent with
  | none =>
      rw [exponentChars, List.append_nil]
      exact splitAtFirst_of_clean clean
  | some pair => exact splitAtFirst_append clean (by simpa using mark pair rfl)

private theorem splitAtFirst_trail {lead : List Char} (trail : Option (List Char))
    (clean : ∀ c ∈ lead, decide (c = '.') = false) :
    splitAtFirst (fun c => c = '.') (lead ++ trailChars trail) = (lead, trail) := by
  cases trail with
  | none =>
      rw [trailChars, List.append_nil]
      exact splitAtFirst_of_clean clean
  | some trail => exact splitAtFirst_append clean (by decide)

/-- A text of this form denotes the decimal of all its digits, with a scale that counts
the digits after the point and is lowered by the exponent. -/
theorem parse_textChars {value : Scaled} {negative : Bool} {lead : List Char}
    {trail : Option (List Char)} {exponent : Option (Char × Int)} (nonempty : lead ≠ [])
    (leadNative : ∀ c ∈ lead, isDigit c = true)
    (trailNative : ∀ c ∈ trail.getD [], isDigit c = true)
    (mark : ∀ pair ∈ exponent, pair.1 = 'e' ∨ pair.1 = 'E')
    (small : ∀ pair ∈ exponent, pair.2.natAbs ≤ maxExponent)
    (unscaled : value.unscaled =
      if negative then -(ofDigits (lead ++ trail.getD []) : Int)
      else ofDigits (lead ++ trail.getD []))
    (scale : value.scale = (trail.getD []).length - (exponent.map (·.2)).getD 0) :
    parse (String.ofList (textChars negative lead trail exponent)) = .ok value := by
  obtain ⟨number, places, least, greatest⟩ := value
  dsimp only at unscaled scale
  -- Digits are none of the characters that divide a text.
  have signClean : ∀ c ∈ signChars negative, c = '-' := by
    cases negative <;> simp [signChars]
  have pointClean : ∀ c ∈ trailChars trail, c = '.' ∨ isDigit c = true := by
    cases trail with
    | none => nofun
    | some trail => exact fun c among => (List.mem_cons.mp among).imp_right (trailNative c)
  have digitClean : ∀ {c : Char}, isDigit c = true → (c = 'e' || c = 'E' : Bool) = false := by
    intro c native
    have lower : c ≠ 'e' := ne_of_isDigit native rfl
    have upper : c ≠ 'E' := ne_of_isDigit native rfl
    simp [lower, upper]
  have baseClean : ∀ c ∈ signChars negative ++ lead ++ trailChars trail,
      (c = 'e' || c = 'E' : Bool) = false := by
    intro c among
    rw [List.mem_append, List.mem_append] at among
    rcases among with (among | among) | among
    · rw [signClean c among]; rfl
    · exact digitClean (leadNative c among)
    · rcases pointClean c among with rfl | native
      · rfl
      · exact digitClean native
  have leadClean : ∀ c ∈ signChars negative ++ lead, decide (c = '.') = false := by
    intro c among
    rcases List.mem_append.mp among with among | among
    · rw [signClean c among]; rfl
    · exact decide_eq_false (ne_of_isDigit (leadNative c among) rfl)
  have base := splitAtFirst_exponent baseClean mark
  have parts := splitAtFirst_trail trail leadClean
  have kept : (trail.getD []).filter (fun c => c ≠ '_') = trail.getD [] :=
    List.filter_eq_self.mpr fun c among =>
      decide_eq_true (ne_of_isDigit (trailNative c among) rfl)
  have full : (signChars negative ++ lead ++ trailChars trail).isEmpty = false := by
    simp [nonempty]
  have allNative : ∀ c ∈ lead ++ trail.getD [], isDigit c = true := fun c among =>
    (List.mem_append.mp among).elim (leadNative c) (trailNative c)
  have read : parseUnscaled (signChars negative ++ lead ++ trail.getD []) = .ok number := by
    rw [List.append_assoc, parseUnscaled_sign (by simp [nonempty]) allNative, unscaled]
  unfold parse textChars
  rw [String.toList_ofList, base]
  dsimp only
  rw [parts]
  dsimp only
  simp only [kept, full, read]
  cases exponent with
  | none =>
      have places_eq : ((trail.getD []).length : Int) - 0 = places := scale.symm
      exact (dif_pos (places_eq.symm ▸ ⟨least, greatest⟩)).trans (by simp [places_eq]; rfl)
  | some pair =>
      have places_eq : ((trail.getD []).length : Int) - pair.2 = places := scale.symm
      simp only [Option.map_some, parseSigned_signedExponent (small pair rfl)]
      exact (dif_pos (places_eq.symm ▸ ⟨least, greatest⟩)).trans (by simp [places_eq]; rfl)

/-!
## The forms of writing
-/

/-- A form of writing a magnitude: its digits denote it, and their place agrees with its
scale. -/
structure Writes (magnitude : Nat) (scale : Int) (lead : List Char) (trail : Option (List Char))
    (exponent : Option (Char × Int)) : Prop where
  nonempty : lead ≠ []
  lead_isDigit : ∀ c ∈ lead, isDigit c = true
  trail_isDigit : ∀ c ∈ trail.getD [], isDigit c = true
  mark : ∀ pair ∈ exponent, pair.1 = 'e' ∨ pair.1 = 'E'
  small : ∀ pair ∈ exponent, pair.2.natAbs ≤ maxExponent
  denotes : ofDigits (lead ++ trail.getD []) = magnitude
  place : scale = (trail.getD []).length - (exponent.map (·.2)).getD 0

theorem Writes.parse {value : Scaled} {magnitude : Nat} {scale : Int} {lead : List Char}
    {trail : Option (List Char)} {exponent : Option (Char × Int)}
    (writes : Writes magnitude scale lead trail exponent) (negative : Bool)
    (unscaled_eq : value.unscaled = if negative then -(magnitude : Int) else magnitude)
    (scale_eq : value.scale = scale) :
    parse (String.ofList (textChars negative lead trail exponent)) = .ok value :=
  parse_textChars writes.nonempty writes.lead_isDigit writes.trail_isDigit writes.mark
    writes.small (by rw [writes.denotes, unscaled_eq]) (by rw [scale_eq, writes.place])

section Forms

variable {magnitude : Nat} {scale : Int}

private theorem native (magnitude : Nat) : ∀ c ∈ digits magnitude, isDigit c = true :=
  fun _ among => isDigit_of_mem_digits among

private theorem isDigit_of_mem_zeros {count : Nat} {c : Char}
    (among : c ∈ List.replicate count '0') : isDigit c = true := by
  rw [(List.mem_replicate.mp among).2]
  rfl

/-- One digit before the point, the others after it, and an exponent. -/
theorem writes_scientific {first : Char} {rest : List Char}
    (leads : digits magnitude = first :: rest)
    (small : ((digits magnitude).length - scale - 1).natAbs ≤ maxExponent) :
    Writes magnitude scale [first] (if rest = [] then none else some rest)
      (some ('E', (digits magnitude).length - scale - 1)) := by
  have later : (if rest = [] then none else some rest).getD [] = rest := by
    split
    · rename_i empty; exact empty.symm
    · rfl
  have digit := native magnitude
  rw [leads] at digit
  refine ⟨nofun, ?_, ?_, ?_, ?_, ?_, ?_⟩
  · exact fun c among => digit c (List.mem_singleton.mp among ▸ List.mem_cons_self)
  · rw [later]
    exact fun c among => digit c (.tail _ among)
  · rintro _ ⟨⟩
    exact .inr rfl
  · rintro _ ⟨⟩
    exact small
  · rw [later, List.singleton_append, ← leads, ofDigits_digits]
  · rw [later, leads, List.length_cons, Option.map_some, Option.getD_some]
    omega

theorem writes_exponent (small : scale.natAbs ≤ maxExponent) :
    Writes magnitude scale (digits magnitude) none (some ('e', -scale)) := by
  refine ⟨digits_ne_nil magnitude, native magnitude, nofun, ?_, ?_, ?_, ?_⟩
  · rintro _ ⟨⟩
    exact .inl rfl
  · rintro _ ⟨⟩
    rwa [Int.natAbs_neg]
  · rw [Option.getD_none, List.append_nil, ofDigits_digits]
  · simp

theorem writes_zeros (count : Nat) :
    Writes (magnitude * Nat.pow 10 count) 0 (digits magnitude ++ List.replicate count '0') none
      none := by
  refine ⟨by simp [digits_ne_nil], ?_, nofun, nofun, nofun, ?_, rfl⟩
  · exact fun c among => (List.mem_append.mp among).elim (native magnitude c) isDigit_of_mem_zeros
  · have none_left := ofDigits_replicate_zero_append count []
    rw [List.append_nil] at none_left
    rw [Option.getD_none, List.append_nil, ofDigits_append, ofDigits_digits, none_left,
      List.length_replicate]
    rfl

theorem writes_point (positive : 0 < scale) (short : scale < (digits magnitude).length) :
    Writes magnitude scale
      ((digits magnitude).take ((digits magnitude).length - scale).toNat)
      (some ((digits magnitude).drop ((digits magnitude).length - scale).toNat)) none := by
  refine ⟨?_, ?_, ?_, nofun, nofun, ?_, ?_⟩
  · rw [Ne, List.take_eq_nil_iff, not_or]
    exact ⟨by omega, digits_ne_nil magnitude⟩
  · exact fun c among => native magnitude c (List.mem_of_mem_take among)
  · exact fun c among => native magnitude c (List.mem_of_mem_drop among)
  · rw [Option.getD_some, List.take_append_drop, ofDigits_digits]
  · rw [Option.getD_some, List.length_drop, Option.map_none, Option.getD_none]
    omega

theorem writes_leading_zeros (long : (digits magnitude).length ≤ scale) :
    Writes magnitude scale ['0']
      (some (List.replicate (scale - (digits magnitude).length).toNat '0' ++ digits magnitude))
      none := by
  refine ⟨nofun, ?_, ?_, nofun, nofun, ?_, ?_⟩
  · exact fun c among => List.mem_singleton.mp among ▸ rfl
  · exact fun c among =>
      (List.mem_append.mp among).elim isDigit_of_mem_zeros (native magnitude c)
  · exact (ofDigits_replicate_zero_append _ _).trans (ofDigits_digits magnitude)
  · rw [Option.getD_some, List.length_append, List.length_replicate, Option.map_none,
      Option.getD_none]
    omega

/-- What is written of a magnitude is one of these forms. -/
theorem exists_writes (magnitude : Nat) (least : minScale ≤ scale) (greatest : scale ≤ maxScale) :
    ∃ lead trail exponent,
      magnitudeChars magnitude scale = lead ++ trailChars trail ++ exponentChars exponent ∧
      if 0 ≤ -scale ∧ -scale ≤ maxTrailingZeros then
        Writes (magnitude * Nat.pow 10 (-scale).toNat) 0 lead trail exponent
      else Writes magnitude scale lead trail exponent := by
  have lowest : minScale = -9223372036854775808 := by decide
  have highest : maxScale = 9223372036854775807 := by decide
  have room : 9223372036854775808 ≤ maxExponent := by decide
  have many : maxLeadingZeros = 5 := rfl
  have most : maxTrailingZeros = 15 := rfl
  obtain ⟨first, rest, leads, _⟩ := exists_digits_eq_cons magnitude
  have some_digit : 0 < (digits magnitude).length := by rw [leads]; exact Nat.succ_pos _
  -- The cases are those in which the form is chosen. Only the trailing zeros change the
  -- scale; a bound on the exponent is due where one is written.
  unfold magnitudeChars
  dsimp only
  by_cases scientific : maxLeadingZeros < scale - (digits magnitude).length
  · refine ⟨_, _, _, ?_, (if_neg ?_).mpr (writes_scientific leads ?_)⟩
    · rw [if_pos scientific, leads]
      cases rest <;> rfl
    · omega
    · omega
  rw [if_neg scientific]
  by_cases exponent : maxTrailingZeros < -scale
  · refine ⟨_, _, _, ?_, (if_neg ?_).mpr (writes_exponent ?_)⟩
    · rw [if_pos exponent, trailChars, List.append_nil]
      rfl
    · omega
    · omega
  rw [if_neg exponent]
  by_cases whole : scale ≤ 0
  · refine ⟨_, _, _, ?_, (if_pos ?_).mpr (writes_zeros _)⟩
    · rw [if_pos whole, trailChars, exponentChars, List.append_nil, List.append_nil]
    · omega
  rw [if_neg whole]
  have fraction : ¬ (0 ≤ -scale ∧ -scale ≤ maxTrailingZeros) := by omega
  by_cases short : scale < (digits magnitude).length
  · refine ⟨_, _, _, ?_, (if_neg fraction).mpr (writes_point (by omega) short)⟩
    rw [if_pos short, trailChars, exponentChars, List.append_nil]
  · refine ⟨_, _, _, ?_, (if_neg fraction).mpr (writes_leading_zeros (by omega))⟩
    rw [if_neg short, trailChars, exponentChars, List.append_nil]
    rfl

end Forms

/-- A scaled decimal is read back from its text as the same number. -/
theorem parse_print (value : Scaled) : Scaled.parse value.print = .ok value.restored := by
  unfold print restored
  split
  · have zero : Writes 0 0 ['0'] none none :=
      ⟨nofun, fun c among => List.mem_singleton.mp among ▸ rfl, nofun, nofun, nofun, rfl, rfl⟩
    exact zero.parse false rfl rfl
  · obtain ⟨lead, trail, exponent, chars, writes⟩ :=
      exists_writes value.unscaled.natAbs value.minScale_le value.le_maxScale
    have signed : (if value.unscaled < 0 then '-' :: magnitudeChars value.unscaled.natAbs value.scale
        else magnitudeChars value.unscaled.natAbs value.scale) =
          textChars (value.unscaled < 0) lead trail exponent := by
      rw [chars, textChars]
      by_cases negative : value.unscaled < 0 <;> simp [negative, signChars]
    dsimp only
    rw [signed]
    have size : value.unscaled = if decide (value.unscaled < 0) then
        -(value.unscaled.natAbs : Int) else value.unscaled.natAbs := by
      by_cases negative : value.unscaled < 0
      · rw [decide_eq_true negative, if_pos rfl]
        omega
      · rw [decide_eq_false negative, if_neg (by decide)]
        omega
    by_cases whole : 0 ≤ -value.scale ∧ -value.scale ≤ maxTrailingZeros
    · rw [if_pos whole] at writes ⊢
      refine writes.parse _ ?_ rfl
      change value.unscaled * _ = _
      nth_rewrite 1 [size]
      split <;> simp
    · rw [if_neg whole] at writes ⊢
      exact writes.parse _ size rfl

end BatchAuction.Decimal.Scaled
