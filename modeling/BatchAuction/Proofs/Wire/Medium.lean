import BatchAuction.Proofs.Wire.Outcome
import BatchAuction.Wire.Notification

/-!
# Decoders that do not look at the medium

Enumerations and tags are looked at differently in a text, in memory and in a buffer. A
decoder that is built without them accepts the same document in each of the three, and
makes the same of it; only what it says in a refusal may differ.
-/

set_option autoImplicit false

namespace BatchAuction.Wire

open Json

variable {α β σ : Type}

/-- Whether a decoder makes the same of a document in whatever form it is met. -/
def Decoder.IgnoresMedium (decoder : Decoder α) : Prop :=
  ∀ first second document,
    (decoder first document).toOption = (decoder second document).toOption

/-- Whether fields make the same of members and of items in whatever form they are met. -/
structure Fields.IgnoresMedium (fields : Fields σ α) : Prop where
  ofMembers : ∀ first second members,
    (fields.fromMembers first members).toOption = (fields.fromMembers second members).toOption
  ofItems : ∀ first second missing ending index items,
    (fields.fromItems first missing ending index items).toOption =
      (fields.fromItems second missing ending index items).toOption

namespace Decoder.IgnoresMedium

variable {decoder : Decoder α}

theorem outcome?_eq (ignores : decoder.IgnoresMedium) (first second : Medium) (value : Json) :
    decoder.outcome? first value = decoder.outcome? second value :=
  ignores first second value.toDocument

theorem map (ignores : decoder.IgnoresMedium) (change : α → β) :
    (decoder.map change).IgnoresMedium := by
  intro first second document
  simp only [Decoder.map, toOption_map, ignores first second]

theorem refine (ignores : decoder.IgnoresMedium) (check : α → Except Cause β) :
    (decoder.refine check).IgnoresMedium := by
  intro first second document
  simp only [Decoder.refine, toOption_bind, ignores first second]

theorem option (ignores : decoder.IgnoresMedium) : decoder.option.IgnoresMedium := by
  intro first second document
  cases document with
  | null => rfl
  | _ => simp only [Decoder.option, toOption_map, ignores first second]

private theorem itemsFrom_ignoresMedium (ignores : decoder.IgnoresMedium)
    (first second : Medium) (ending : ListEnd) (index : Nat) (items : List Document) :
    (itemsFrom decoder first ending index items).toOption =
      (itemsFrom decoder second ending index items).toOption := by
  induction items generalizing index with
  | nil => rfl
  | cons item rest ih =>
      simp only [itemsFrom, toOption_bind, toOption_mapError, ignores first second, ih]

theorem list (ignores : decoder.IgnoresMedium) : decoder.list.IgnoresMedium := by
  intro first second document
  cases document with
  | list items ending tooDeep =>
      cases tooDeep with
      | true => rfl
      | false => exact itemsFrom_ignoresMedium ignores first second ending 0 items
  | _ => rfl

end Decoder.IgnoresMedium

namespace Fields

theorem pure_ignoresMedium (value : α) : (pure value : Fields σ α).IgnoresMedium where
  ofMembers _ _ _ := rfl
  ofItems _ _ _ _ _ _ := rfl

theorem IgnoresMedium.seq {fields : Fields σ (α → β)} {next : Fields σ α}
    (ignores : fields.IgnoresMedium) (nextIgnores : next.IgnoresMedium) :
    (fields <*> next).IgnoresMedium where
  ofMembers first second members := by
    have read : ∀ medium, ((fields <*> next).fromMembers medium members).toOption =
        (fields.fromMembers medium members).toOption.bind fun f =>
          (next.fromMembers medium members).toOption.map f := fun _ => toOption_both ..
    rw [read, read, ignores.ofMembers first second, nextIgnores.ofMembers first second]
  ofItems first second missing ending index items := by
    have read : ∀ medium, ((fields <*> next).fromItems medium missing ending index items) =
        (do
          let taken ← fields.fromItems medium missing ending index items
          let others ← next.fromItems medium missing ending (index + fields.names.length) taken.2
          return (taken.1 others.1, others.2)) := fun _ => rfl
    simp only [read, toOption_bind, ignores.ofItems first second, nextIgnores.ofItems first second]

theorem member_ignoresMedium (name : String) {decode : Decoder α} (absent : Option α)
    (write : σ → List (String × Json)) (ignores : decode.IgnoresMedium) :
    (member name decode absent write).IgnoresMedium where
  ofMembers first second members := by
    unfold member fromMember
    dsimp only
    split
    · rfl
    · rename_i place document others _
      have same := ignores first second document
      cases read : decode first document <;> cases other : decode second document <;>
        rw [read, other] at same <;> cases same <;> rfl
  ofItems first second missing ending index items := by
    unfold member
    cases items with
    | nil => rfl
    | cons item rest =>
        have same := ignores first second item
        dsimp only [fromItem]
        cases read : decode first item <;> cases other : decode second item <;>
          rw [read, other] at same <;> cases same <;> rfl

theorem required_ignoresMedium (name : String) {codec : Codec α} (get : σ → α)
    (ignores : codec.decode.IgnoresMedium) : (required name codec get).IgnoresMedium :=
  member_ignoresMedium name none _ ignores

private theorem toOption_readObject {fields : Fields σ α} (ignores : fields.IgnoresMedium)
    (first second : Medium) (members : Members) :
    (fields.readObject first members).toOption = (fields.readObject second members).toOption := by
  have same := ignores.ofMembers first second members
  unfold readObject
  cases strayError? fields.names 0 members.entries <;> cases members.tail <;>
    cases read : fields.fromMembers first members <;>
      cases other : fields.fromMembers second members <;>
        rw [read, other] at same <;> cases same <;> rfl

private theorem surplus?_isNone (first second : Medium) (wanted length : Nat)
    (ending : ListEnd) (items : List Document) :
    (surplus? first wanted length ending items).isNone =
      (surplus? second wanted length ending items).isNone := by
  unfold surplus?
  split <;> rfl

private theorem toOption_readList {fields : Fields σ α} (ignores : fields.IgnoresMedium)
    (owner : Owner) (first second : Medium) (ending : ListEnd) (items : List Document) :
    (fields.readList owner first ending items).toOption =
      (fields.readList owner second ending items).toOption := by
  have read : ∀ medium, (fields.readList owner medium ending items).toOption =
      (fields.fromItems medium
        (fun index => .invalidLength index (.members owner fields.names.length)) ending 0
          items).toOption.bind fun taken =>
        if (surplus? medium fields.names.length items.length ending taken.2).isNone then
          some taken.1
        else none := by
    intro medium
    unfold readList
    dsimp only
    rw [toOption_bind]
    refine Option.bind_congr fun taken _ => ?_
    cases surplus? medium fields.names.length items.length ending taken.2 <;> rfl
  simp only [read, ignores.ofItems first second, surplus?_isNone first second]

theorem IgnoresMedium.decoder {fields : Fields σ α} (ignores : fields.IgnoresMedium)
    (owner : Owner) : (fields.decoder owner).IgnoresMedium := by
  intro first second document
  cases document with
  | object members ending tooDeep =>
      cases tooDeep with
      | true => rfl
      | false => exact toOption_readObject ignores first second (.of ending members)
  | list items ending tooDeep =>
      cases tooDeep with
      | true => rfl
      | false => exact toOption_readList ignores owner first second ending items
  | _ => rfl

end Fields

/-!
## Formats
-/

theorem Decoder.textAs_ignoresMedium (expected : Expected) : (textAs expected).IgnoresMedium :=
  fun _ _ _ => rfl

theorem Decoder.text_ignoresMedium : text.IgnoresMedium := textAs_ignoresMedium .text

theorem Decoder.boolean_ignoresMedium : boolean.IgnoresMedium := fun _ _ _ => rfl

/-- Alternatives are read from a buffer, whatever they come from. -/
theorem Decoder.either_ignoresMedium (first second : Decoder α) :
    (either first second).IgnoresMedium := fun _ _ _ => rfl

theorem Decoder.firstOf_ignoresMedium (name : String) (alternatives : List (Decoder α)) :
    (firstOf name alternatives).IgnoresMedium := fun _ _ _ => rfl

namespace Codec

theorem unsigned64_ignoresMedium : unsigned64.decode.IgnoresMedium := fun _ _ _ => rfl

theorem amount_ignoresMedium : amount.decode.IgnoresMedium :=
  (Decoder.textAs_ignoresMedium .amount).refine _

theorem bytes_ignoresMedium : bytes.decode.IgnoresMedium :=
  Decoder.text_ignoresMedium.refine _

theorem fixedBytes_ignoresMedium (size : Nat) : (fixedBytes size).decode.IgnoresMedium :=
  Decoder.text_ignoresMedium.refine _

theorem address_ignoresMedium : address.decode.IgnoresMedium :=
  Decoder.text_ignoresMedium.refine _

theorem addressSet_ignoresMedium : addressSet.decode.IgnoresMedium :=
  address_ignoresMedium.list.map _

theorem auctionId_ignoresMedium : auctionId.decode.IgnoresMedium :=
  Decoder.either_ignoresMedium _ _

end Codec

theorem solutionReference_ignoresMedium : solutionReference.IgnoresMedium :=
  Decoder.firstOf_ignoresMedium _ _

theorem transaction_ignoresMedium : transaction.decode.IgnoresMedium :=
  (Fields.pure_ignoresMedium _)
    |>.seq (Fields.required_ignoresMedium "from" _ Codec.address_ignoresMedium)
    |>.seq (Fields.required_ignoresMedium "to" _ Codec.address_ignoresMedium)
    |>.seq (Fields.required_ignoresMedium "input" _ Codec.bytes_ignoresMedium)
    |>.seq (Fields.required_ignoresMedium "value" _ Codec.amount_ignoresMedium)
    |>.decoder _

end BatchAuction.Wire
