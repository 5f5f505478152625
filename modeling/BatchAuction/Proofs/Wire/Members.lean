import BatchAuction.Proofs.Json.Sorting
import BatchAuction.Proofs.Wire.Medium

/-!
# What records make of what an object holds

An object that is held in memory leads a name to the last member that was written under it.
The fields of a record take what the object holds under their names, decoded by themselves;
the other members and the order of all of them have no part in it.
-/

set_option autoImplicit false

namespace BatchAuction.Wire

open Json Fields

variable {α β σ : Type} {medium : Medium} {members : List (String × Json)} {value : Json}

/-!
## What an object holds
-/

/-- The object has a member of the name, and it decodes. -/
def Holds (value : Json) (name : String) (decode : Decoder α) (part : α) : Prop :=
  ∃ member, value.member? name = some member ∧ decodeValue decode member = .ok part

/-- The member of the name decodes, or there is nothing: it is missing or null. -/
def MayHold (value : Json) (name : String) (decode : Decoder α) : Option α → Prop
  | some part => Holds value name decode part
  | none => value.member? name = none ∨ value.member? name = some .null

/-!
## Fields that are looked up
-/

theorem ofMembers?_seq_eq_some_iff {first : Fields σ (α → β)} {second : Fields σ α}
    {result : β} :
    (first <*> second).ofMembers? medium members = some result ↔
      ∃ f, first.ofMembers? medium members = some f ∧
        ∃ x, second.ofMembers? medium members = some x ∧ f x = result := by
  simp only [ofMembers?_seq, Option.bind_eq_some_iff, Option.map_eq_some_iff]

theorem ofMembers?_pure_eq_some_iff {made result : α} :
    (pure made : Fields σ α).ofMembers? medium members = some result ↔ made = result :=
  Option.some_inj

theorem ofMembers?_member_of_leads {name : String} (decode : Decoder α) (absent : Option α)
    (write : σ → List (String × Json)) (distinct : (members.map (·.1)).Nodup)
    (leads : members.lookup name = (value.member? name).map sorted) :
    (member name decode absent write).ofMembers? medium members =
      match value.member? name with
      | some member => decode.outcome? medium member.sorted
      | none => absent := by
  rw [ofMembers?_member name decode absent write distinct, leads]
  cases value.member? name <;> rfl

/-- A field takes what the object holds under its name, or what stands for a missing
member. -/
theorem ofMembers?_member_eq_some_iff {name : String} {decode : Decoder α}
    (ignores : decode.IgnoresMedium) (absent : Option α) (write : σ → List (String × Json))
    (distinct : (members.map (·.1)).Nodup)
    (leads : members.lookup name = (value.member? name).map sorted) {part : α} :
    (member name decode absent write).ofMembers? medium members = some part ↔
      Holds value name decode part ∨ value.member? name = none ∧ absent = some part := by
  rw [ofMembers?_member_of_leads decode absent write distinct leads]
  unfold Holds
  cases value.member? name with
  | none => simp
  | some member =>
      simp only [Option.some.injEq, exists_eq_left', reduceCtorEq, false_and, or_false]
      rw [ignores.outcome?_eq medium .value, Decoder.outcome?_eq_some_iff]
      rfl

theorem ofMembers?_given_eq_some_iff {name : String} {decode : Decoder α}
    (ignores : decode.IgnoresMedium) (distinct : (members.map (·.1)).Nodup)
    (leads : members.lookup name = (value.member? name).map sorted) {part : α} :
    (given name decode).ofMembers? medium members = some part ↔
      Holds value name decode part := by
  unfold given
  rw [ofMembers?_member_eq_some_iff ignores none _ distinct leads]
  simp

theorem decodeValue_eq_ok_iff {decode : Decoder α} {part : α} :
    decodeValue decode value = .ok part ↔ decode.outcome? .value value.sorted = some part :=
  Decoder.outcome?_eq_some_iff.symm

theorem decodeValue_option_eq_ok_iff {decode : Decoder α} {part : Option α}
    (refused : ∀ part, decodeValue decode .null ≠ .ok part) :
    decodeValue decode.option value = .ok part ↔
      match part with
      | some part => decodeValue decode value = .ok part
      | none => value = .null := by
  rw [decodeValue_eq_ok_iff, Decoder.outcome?_option]
  cases value with
  | null =>
      cases part with
      | none => simp [sorted]
      | some part => simp [sorted, refused part]
  | _ => cases part <;> simp [sorted, decodeValue_eq_ok_iff]

/-- A member that may be missing or null, of a decoder that refuses null. -/
theorem ofMembers?_mayHold_iff {name : String} {decode : Decoder α}
    (ignores : decode.IgnoresMedium) (refused : ∀ part, decodeValue decode .null ≠ .ok part)
    (write : σ → List (String × Json)) (distinct : (members.map (·.1)).Nodup)
    (leads : members.lookup name = (value.member? name).map sorted) {part : Option α} :
    (member name decode.option (some none) write).ofMembers? medium members = some part ↔
      MayHold value name decode part := by
  rw [ofMembers?_member_eq_some_iff ignores.option (some none) write distinct leads]
  unfold Holds
  simp only [decodeValue_option_eq_ok_iff refused]
  cases part with
  | none => simp [MayHold, or_comm]
  | some part => simp [MayHold, Holds]

end BatchAuction.Wire
