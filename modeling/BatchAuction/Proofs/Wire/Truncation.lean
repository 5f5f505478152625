import BatchAuction.Proofs.Json.Extension
import BatchAuction.Proofs.Wire.Undamaged

/-!
# Bodies that are cut off or go on

What is accepted of a text is one undamaged value, and the reader stops right behind it. So
a text that is accepted is refused as soon as anything but blanks follows it, and where one
of two accepted texts goes on from the other, only blanks tell them apart. The formats that
may be bare numbers are the exception, because more digits make another number.
-/

set_option autoImplicit false

namespace BatchAuction.Wire

open Json

variable {α : Type} {decoder : Decoder α} {bytes : List UInt8} {result : α}

/-- The bytes that may stand around a value: space, tab, line feed and carriage return. -/
def blanks : List UInt8 := [32, 9, 10, 13]

theorem tokens_eq_nil_iff_blanks : tokens bytes = [] ↔ ∀ byte ∈ bytes, byte ∈ blanks := by
  simp [tokens_eq_nil_iff, isBlank, blanks, or_assoc]

/-- The decoder accepts no bare number. -/
def Decoder.RefusesNumbers (decoder : Decoder α) : Prop :=
  ∀ number result, decoder .text (.number number) ≠ .ok result

/-- What is made of an accepted text does not change behind its end, where only blanks may
follow. -/
theorem decodeText_append [decoder.RefusesDamage] (refuses : decoder.RefusesNumbers)
    (accepted : decodeText decoder bytes = .ok result) (more : List UInt8) :
    decodeText decoder (bytes ++ more) =
      if tokens more = [] then .ok result else damaged .trailingCharacters := by
  obtain ⟨untrailed, decoded⟩ := decodeText_eq_ok_iff.mp accepted
  have other : (read bytes).document.isNumber = false := by
    cases document : (read bytes).document with
    | number number => exact absurd (document ▸ decoded) (refuses number result)
    | _ => rfl
  have reading : read bytes = ⟨(read bytes).document, false⟩ := untrailed ▸ rfl
  have extended := read_append reading (Decoder.RefusesDamage.skip?_eq_none decoded) other more
  unfold decodeText
  rw [extended]
  dsimp only
  rw [decoded]
  cases tokens more <;> rfl

theorem decodeText_append_of_blanks [decoder.RefusesDamage] (refuses : decoder.RefusesNumbers)
    (accepted : decodeText decoder bytes = .ok result) {more : List UInt8}
    (blank : ∀ byte ∈ more, byte ∈ blanks) : decodeText decoder (bytes ++ more) = .ok result := by
  rw [decodeText_append refuses accepted, if_pos (tokens_eq_nil_iff_blanks.mpr blank)]

theorem decodeText_append_of_not_blanks [decoder.RefusesDamage]
    (refuses : decoder.RefusesNumbers) (accepted : decodeText decoder bytes = .ok result)
    {more : List UInt8} (follows : ¬ ∀ byte ∈ more, byte ∈ blanks) :
    decodeText decoder (bytes ++ more) = damaged .trailingCharacters := by
  rw [decodeText_append refuses accepted, if_neg (mt tokens_eq_nil_iff_blanks.mp follows)]

theorem decodeText_append_eq_ok_iff [decoder.RefusesDamage] (refuses : decoder.RefusesNumbers)
    (accepted : decodeText decoder bytes = .ok result) {more : List UInt8} {found : α} :
    decodeText decoder (bytes ++ more) = .ok found ↔
      (∀ byte ∈ more, byte ∈ blanks) ∧ found = result := by
  by_cases blank : ∀ byte ∈ more, byte ∈ blanks
  · rw [decodeText_append_of_blanks refuses accepted blank]
    exact ⟨fun same => ⟨blank, (Except.ok.inj same).symm⟩, fun holds => congrArg _ holds.2.symm⟩
  · rw [decodeText_append_of_not_blanks refuses accepted blank]
    exact iff_of_false nofun fun holds => blank holds.1

namespace Format

/-- Only a creation time and a reference to solutions may be bare numbers. -/
theorem refusesNumbers (format : Format) (notTime : format ≠ .creationTime)
    (notReference : format ≠ .solutionReference) : format.decoder.RefusesNumbers := by
  intro number result accepted
  cases format with
  | creationTime => exact notTime rfl
  | solutionReference => exact notReference rfl
  | sellSource | buyDestination | signingScheme | side | orderClass => cases accepted
  | orderUid =>
      obtain ⟨_, read, _⟩ := ok_of_bind_ok accepted
      exact mismatch_ne_ok read
  | _ => exact mismatch_ne_ok accepted

variable {format : Format} {result : format.Payload}

/-- An accepted text is refused at the top as soon as more than blanks follow it. Whatever goes
on from it or is left of it is read as the same value if it is accepted at all, and what is
left of it is refused if a closing bracket or quote, or anything else but blanks, is cut off. -/
theorem no_body_is_cut_off_or_goes_on_unnoticed (notTime : format ≠ .creationTime)
    (notReference : format ≠ .solutionReference)
    (accepted : decodeText format.decoder bytes = .ok result) :
    (∀ more, ((∃ found, decodeText format.decoder (bytes ++ more) = .ok found) ↔
        ∀ byte ∈ more, byte ∈ blanks) ∧
      (∀ found, decodeText format.decoder (bytes ++ more) = .ok found → found = result) ∧
      ∀ error, decodeText format.decoder (bytes ++ more) = .error error → error.location = ".") ∧
    (∀ other found, decodeText format.decoder other = .ok found →
      bytes <+: other ∨ other <+: bytes → found = result) ∧
    ∀ front back, bytes = front ++ back → (∃ byte ∈ back, byte ∉ blanks) →
      ∃ error, decodeText format.decoder front = .error error := by
  have refuses := format.refusesNumbers notTime notReference
  refine ⟨fun more => ⟨?_, fun found read => ?_, fun error read => ?_⟩, ?_, ?_⟩
  · simp [decodeText_append_eq_ok_iff refuses accepted]
  · exact ((decodeText_append_eq_ok_iff refuses accepted).mp read).2
  · by_cases blank : ∀ byte ∈ more, byte ∈ blanks
    · rw [decodeText_append_of_blanks refuses accepted blank] at read
      cases read
    · rw [decodeText_append_of_not_blanks refuses accepted blank] at read
      cases read
      rfl
  · -- Whichever of the two is the longer one, it goes on from the other.
    intro other found read joined
    rcases joined with ⟨more, rfl⟩ | ⟨more, rfl⟩
    · exact ((decodeText_append_eq_ok_iff refuses accepted).mp read).2
    · exact ((decodeText_append_eq_ok_iff refuses read).mp accepted).2.symm
  · intro front back split lost
    subst split
    obtain ⟨byte, among, other⟩ := lost
    cases read : decodeText format.decoder front with
    | error error => exact ⟨error, rfl⟩
    | ok found =>
        have blank := ((decodeText_append_eq_ok_iff refuses read).mp accepted).1
        exact absurd (blank byte among) other

/-- A fee policy that is read with blanks behind it, refused with a bracket more and refused
without its own. -/
theorem late_tag_neither_cut_off_nor_going_on :
    let bytes := Text.Utf8.ofString lateTag.print
    ∃ policy, decodeText Wire.feePolicy.decode bytes = .ok policy ∧
      (∃ found, decodeText Wire.feePolicy.decode (bytes ++ [10]) = .ok found) ∧
      (¬ ∃ found, decodeText Wire.feePolicy.decode (bytes ++ [125]) = .ok found) ∧
      ∃ error, decodeText Wire.feePolicy.decode bytes.dropLast = .error error := by
  intro bytes
  have back : ∀ x ∈ [Binary64.half], x.ReadsBack := by
    intro x among
    rw [List.mem_singleton.mp among]
    exact Binary64.half_readsBack
  have spelled : Spells bytes lateTag := lateTag_fits.spells_print (by decide) back
  have accepted : decodeText (Format.decoder .feePolicy) bytes = .ok (.volume .half) := by
    rw [decodeText_of_spells _ spelled]
    rfl
  have noticed := no_body_is_cut_off_or_goes_on_unnoticed (by decide) (by decide) accepted
  have split : bytes = bytes.dropLast ++ [125] := by decide +kernel
  refine ⟨_, accepted, (noticed.1 [10]).1.mpr (by simp [blanks]), ?_, ?_⟩
  · exact mt (noticed.1 [125]).1.mp (by simp [blanks])
  · exact noticed.2.2 _ _ split ⟨125, List.mem_singleton.mpr rfl, by simp [blanks]⟩

end Format

end BatchAuction.Wire
