import BatchAuction.Proofs.Wire.Acceptance
import BatchAuction.Proofs.Wire.Alternative
import BatchAuction.Proofs.Wire.Replacement

/-!
# Buffered documents that are accepted

A union buffers what stands beside its tag, and an object that holds the members of another
value buffers what its own fields do not take. Such a document is accepted only if each
buffered part is the document of a value, and what is made of it is what a variant makes of
these values without the tag.
-/

set_option autoImplicit false

namespace BatchAuction.Wire

open Json

variable {α β σ : Type} {medium : Medium} {document : Document}

/-- Members that are held in memory, as they stand in a document. -/
def heldEntries (members : List (String × Json)) : List (String × Document) :=
  members.map fun member => (member.1, member.2.toDocument)

@[simp] theorem map_fst_heldEntries (members : List (String × Json)) :
    (heldEntries members).map (·.1) = members.map (·.1) := by
  rw [heldEntries, List.map_map]
  rfl

theorem spelled_heldEntries (members : List (String × Json)) :
    spelled (heldEntries members) = memberDocuments members := by
  rw [memberDocuments_eq_map, spelled, heldEntries, List.map_map]
  rfl

theorem heldEntries_append (members others : List (String × Json)) :
    heldEntries (members ++ others) = heldEntries members ++ heldEntries others :=
  List.map_append

theorem lookup_heldEntries (members : List (String × Json)) (name : String) :
    (heldEntries members).lookup name = (members.lookup name).map toDocument := by
  induction members with
  | nil => rfl
  | cons member rest ih =>
      rw [heldEntries] at ih
      rw [heldEntries, List.map_cons, lookup_cons_eq_ite, ih, lookup_cons_eq_ite]
      split <;> rfl

theorem readValue_eq_ok_iff {value : Json} :
    readValue document = .ok value ↔ document = value.toDocument := by
  constructor
  · exact eq_toDocument_of_readValue
  · intro same
    rw [same, readValue_toDocument]

namespace Decoder

/-!
## Unions
-/

variable {variants : List (String × α)} {all : Members} {entries : List (String × Document)}
  {untagged : Untagged α}

/-- A member of another name is buffered in front of what is made of the others. -/
theorem untag_cons_eq_ok_iff {key : String} {found : Option α} (other : key ≠ tagName) :
    untag tagName variants medium all found ((key, document) :: entries) = .ok untagged ↔
      ∃ value rest, document = value.toDocument ∧
        untag tagName variants medium all found entries = .ok rest ∧
        untagged = ⟨rest.tag, (key, value) :: rest.others⟩ := by
  rw [untag.eq_def]
  dsimp only
  rw [if_neg other]
  constructor
  · intro read
    obtain ⟨value, buffered, read⟩ := ok_of_bind_ok read
    obtain ⟨rest, restRead, read⟩ := ok_of_bind_ok read
    cases read
    exact ⟨value, rest, readValue_eq_ok_iff.mp (ok_of_mapError_ok buffered), restRead, rfl⟩
  · intro holds
    obtain ⟨value, rest, rfl, restRead, rfl⟩ := holds
    rw [readValue_toDocument, restRead]
    rfl

/-- Once the tag is found the other members are buffered. -/
theorem untag_some_eq_ok_iff {found : α} :
    untag tagName variants medium all (some found) entries = .ok untagged ↔
      all.tail = none ∧ ∃ others, entries = heldEntries others ∧
        tagName ∉ others.map (·.1) ∧ untagged = ⟨some found, others⟩ := by
  induction entries generalizing untagged with
  | nil =>
      rw [untag]
      cases all.tail with
      | none =>
          constructor
          · intro read
            cases read
            exact ⟨rfl, [], rfl, List.not_mem_nil, rfl⟩
          · intro holds
            obtain ⟨_, others, none, _, rfl⟩ := holds
            cases List.map_eq_nil_iff.mp none.symm
            rfl
      | some error =>
          dsimp only
          split <;> simp
  | cons entry rest ih =>
      obtain ⟨key, document⟩ := entry
      by_cases same : key = tagName
      · -- A second tag is refused.
        rw [untag, if_pos same]
        constructor
        · intro read
          cases read
        · intro holds
          obtain ⟨_, others, held, apart, _⟩ := holds
          rw [← map_fst_heldEntries, ← held] at apart
          exact absurd (same ▸ List.mem_cons_self) apart
      · rw [untag_cons_eq_ok_iff same]
        simp only [ih]
        constructor
        · intro holds
          obtain ⟨value, _, rfl, ⟨sound, others, rfl, apart, rfl⟩, rfl⟩ := holds
          refine ⟨sound, (key, value) :: others, rfl, ?_, rfl⟩
          exact List.not_mem_cons_of_ne_of_not_mem (Ne.symm same) apart
        · intro holds
          obtain ⟨sound, others, held, apart, rfl⟩ := holds
          cases others with
          | nil => cases held
          | cons member others =>
              cases held
              exact ⟨member.2, ⟨some found, others⟩, rfl, ⟨sound, others, rfl,
                fun among => apart (.tail _ among), rfl⟩, rfl⟩

/-- A tag is taken out wherever it stands, and the members on both sides are buffered. -/
theorem untag_none_eq_ok_iff {chosen : α} {others : List (String × Json)} :
    untag tagName variants medium all none entries = .ok ⟨some chosen, others⟩ ↔
      all.tail = none ∧ ∃ before document after,
        entries = heldEntries before ++ (tagName, document) :: heldEntries after ∧
        tagName ∉ (before ++ after).map (·.1) ∧ tag variants medium document = .ok chosen ∧
        others = before ++ after := by
  induction entries generalizing others with
  | nil =>
      refine iff_of_false (fun read => ?_) fun holds => ?_
      · rw [untag] at read
        cases sound : all.tail with
        | none => rw [sound] at read; cases read
        | some error =>
            rw [sound] at read
            dsimp only at read
            split at read <;> cases read
      · obtain ⟨_, before, _, _, none, _⟩ := holds
        cases List.nil_eq_append_iff.mp none with
        | intro _ none => cases none
  | cons entry rest ih =>
      obtain ⟨key, document⟩ := entry
      by_cases same : key = tagName
      · subst same
        rw [untag, if_pos rfl]
        constructor
        · intro read
          obtain ⟨found, chosenTag, read⟩ := ok_of_bind_ok read
          obtain ⟨sound, after, rfl, apart, same⟩ := untag_some_eq_ok_iff.mp read
          cases same
          exact ⟨sound, [], document, others, rfl, apart, ok_of_mapError_ok chosenTag, rfl⟩
        · intro holds
          obtain ⟨sound, before, other, after, split, apart, chosenTag, rfl⟩ := holds
          cases before with
          | cons member before =>
              have same : tagName = member.1 := (Prod.mk.inj (List.cons.inj split).1).1
              exact absurd (same ▸ List.mem_cons_self) apart
          | nil =>
              cases split
              rw [chosenTag]
              exact untag_some_eq_ok_iff.mpr ⟨sound, after, rfl, apart, rfl⟩
      · rw [untag_cons_eq_ok_iff same]
        constructor
        · intro holds
          obtain ⟨value, ⟨found, kept⟩, rfl, read, made⟩ := holds
          cases made
          obtain ⟨sound, before, tagDocument, after, rfl, apart, chosenTag, rfl⟩ := ih.mp read
          exact ⟨sound, (key, value) :: before, tagDocument, after, rfl,
            List.not_mem_cons_of_ne_of_not_mem (Ne.symm same) apart, chosenTag, rfl⟩
        · intro holds
          obtain ⟨sound, before, tagDocument, after, split, apart, chosenTag, rfl⟩ := holds
          cases before with
          | nil =>
              cases split
              exact absurd rfl same
          | cons member before =>
              cases split
              exact ⟨member.2, ⟨some chosen, before ++ after⟩, rfl, ih.mpr ⟨sound, before,
                tagDocument, after, rfl, fun among => apart (.tail _ among), chosenTag, rfl⟩, rfl⟩

theorem decodeBuffer_eq_ok_iff {decoder : Decoder α} {value : Json} {result : α} :
    decodeBuffer decoder value = .ok result ↔ decoder .buffer value.toDocument = .ok result := by
  unfold decodeBuffer
  cases decoder .buffer value.toDocument <;> simp [Except.mapError]

/-- An object is accepted by a union just if one member is the tag of a variant that accepts the
values of the other members. -/
theorem union_object_eq_ok_iff {name : String} {variants : List (String × Decoder α)}
    {members : List (Readable String × Document)} {ending : ObjectEnd} {tooDeep : Bool}
    {result : α} :
    union name variants medium (.object members ending tooDeep) = .ok result ↔
      ∃ before document after variant,
        members = spelled (heldEntries before ++ (tagName, document) :: heldEntries after) ∧
        ending = .closed ∧ tooDeep = false ∧ tagName ∉ (before ++ after).map (·.1) ∧
        tag variants medium document = .ok variant ∧
        variant .buffer (Json.object (before ++ after)).toDocument = .ok result := by
  have reads : ∀ all, Members.of ending members = all →
      union name variants medium (.object members ending false) =
        untag tagName variants medium all none all.entries >>= Untagged.read := by
    intro all same
    rw [← same]
    rfl
  constructor
  · intro accepted
    cases tooDeep with
    | true => cases accepted
    | false =>
        rw [reads _ rfl] at accepted
        obtain ⟨⟨found, others⟩, read, taken⟩ := ok_of_bind_ok accepted
        cases found with
        | none => cases taken
        | some variant =>
            obtain ⟨sound, before, document, after, split, apart, chosen, rfl⟩ :=
              untag_none_eq_ok_iff.mp read
            obtain ⟨rfl, entries, rfl⟩ := Members.eq_spelled_of_tail sound
            rw [Members.of_spelled] at split
            exact ⟨before, document, after, variant, congrArg spelled split, rfl, rfl, apart, chosen,
              decodeBuffer_eq_ok_iff.mp taken⟩
  · intro holds
    obtain ⟨before, document, after, variant, rfl, rfl, rfl, apart, chosen, accepted⟩ := holds
    have read : untag tagName variants medium
        (.whole (heldEntries before ++ (tagName, document) :: heldEntries after)) none
        (heldEntries before ++ (tagName, document) :: heldEntries after) =
          .ok ⟨some variant, before ++ after⟩ :=
      untag_none_eq_ok_iff.mpr ⟨rfl, before, document, after, rfl, apart, chosen, rfl⟩
    rw [reads _ (Members.of_spelled _)]
    exact (congrArg (· >>= Untagged.read) read).trans (decodeBuffer_eq_ok_iff.mpr accepted)

/-- A list is accepted by a union just if its first item is the tag of a variant that accepts the
values of the others. -/
theorem union_list_eq_ok_iff {name : String} {variants : List (String × Decoder α)}
    {items : List Document} {ending : ListEnd} {tooDeep : Bool} {result : α} :
    union name variants medium (.list items ending tooDeep) = .ok result ↔
      ∃ document others variant, items = document :: itemDocuments others ∧ ending = .closed ∧
        tooDeep = false ∧ tag variants medium document = .ok variant ∧
        variant .buffer (Json.list others).toDocument = .ok result := by
  constructor
  · intro accepted
    cases tooDeep with
    | true => cases accepted
    | false =>
        cases items with
        | nil => cases ending <;> cases accepted
        | cons document rest =>
            obtain ⟨variant, chosen, taken⟩ := ok_of_bind_ok accepted
            obtain ⟨others, read, readOthers⟩ := ok_of_bind_ok taken
            obtain ⟨rfl, rfl⟩ := eq_itemDocuments_of_readItems read
            exact ⟨document, others, variant, rfl, rfl, rfl, ok_of_mapError_ok chosen,
              decodeBuffer_eq_ok_iff.mp readOthers⟩
  · intro holds
    obtain ⟨document, others, variant, rfl, rfl, rfl, chosen, accepted⟩ := holds
    change (tag variants medium document).mapError _ >>= _ = _
    rw [chosen]
    change readItems .closed 1 (itemDocuments others) >>= _ = _
    rw [readItems_itemDocuments]
    exact decodeBuffer_eq_ok_iff.mpr accepted

theorem isContainer_of_union_ok {name : String} {variants : List (String × Decoder α)} {result : α}
    (accepted : union name variants medium document = .ok result) :
    (∃ members ending tooDeep, document = .object members ending tooDeep) ∨
      ∃ items ending tooDeep, document = .list items ending tooDeep := by
  cases document with
  | object members ending tooDeep => exact .inl ⟨members, ending, tooDeep, rfl⟩
  | list items ending tooDeep => exact .inr ⟨items, ending, tooDeep, rfl⟩
  | number | text => exact absurd accepted mismatch_ne_ok
  | _ => cases accepted

/-!
## Objects that hold the members of another value
-/

/-- The members of other names are buffered. -/
theorem otherMembers_eq_ok_iff {names : List String} {place : Nat}
    {entries : List (String × Document)} {others : List (String × Json)} :
    otherMembers names place entries = .ok others ↔
      (entries.filter fun entry => !names.contains entry.1) = heldEntries others := by
  induction entries generalizing place others with
  | nil =>
      rw [otherMembers]
      constructor
      · intro read
        cases read
        rfl
      · intro none
        cases List.map_eq_nil_iff.mp none.symm
        rfl
  | cons entry rest ih =>
      obtain ⟨key, document⟩ := entry
      rw [otherMembers, List.filter_cons]
      dsimp only
      by_cases own : names.contains key = true
      · rw [if_pos own, ih, own]
        exact Iff.rfl
      · rw [if_neg own, Bool.eq_false_iff.mpr own, Bool.not_false, if_pos rfl]
        constructor
        · intro read
          cases buffered : readValue document with
          | error error => rw [buffered] at read; cases read
          | ok value =>
              rw [buffered] at read
              cases later : otherMembers names (place + 1) rest with
              | error error => rw [later] at read; cases read
              | ok kept =>
                  rw [later] at read
                  cases read
                  rw [ih.mp later, readValue_eq_ok_iff.mp buffered]
                  rfl
        · intro split
          cases others with
          | nil => cases split
          | cons member others =>
              obtain ⟨same, later⟩ := List.cons.inj split
              cases same
              rw [readValue_toDocument]
              dsimp only
              rw [ih.mpr later]
              rfl

/-- What is read in front of the other value: the own fields, and the members that are buffered
for it. -/
def besides (fields : Fields σ α) (medium : Medium) (all : Members) :
    Except Error (α × List (String × Json)) :=
  (Fields.unlessEarlier
    (PlacedResult.both Prod.mk (fields.fromMembers medium all)
      (otherMembers fields.names 0 all.entries))
    (all.tail.map fun error => ⟨all.entries.length, error⟩)).mapError (·.error)

theorem besides_eq_ok_iff {fields : Fields σ α} {all : Members} {combine : α}
    {others : List (String × Json)} :
    besides fields medium all = .ok (combine, others) ↔
      all.tail = none ∧ fields.fromMembers medium all = .ok combine ∧
        otherMembers fields.names 0 all.entries = .ok others := by
  unfold besides
  cases all.tail <;> cases fields.fromMembers medium all <;>
    cases otherMembers fields.names 0 all.entries <;>
      simp [Fields.unlessEarlier, PlacedResult.both, Except.mapError]

/-- An object is accepted beside the members of another value just if its own fields are, and the
other value is accepted as an object of the other members. -/
theorem flattened_eq_ok_iff {name : String} {fields : Fields σ (α → β)} {inner : Decoder α}
    {result : β} :
    flattened name fields inner medium document = .ok result ↔
      ∃ entries others combine value, document = .object (spelled entries) .closed false ∧
        fields.fromMembers medium (.whole entries) = .ok combine ∧
        (entries.filter fun entry => !fields.names.contains entry.1) = heldEntries others ∧
        inner .buffer (Json.object others).toDocument = .ok value ∧ combine value = result := by
  constructor
  · intro accepted
    cases document with
    | object members ending tooDeep =>
        cases tooDeep with
        | true => cases accepted
        | false =>
            obtain ⟨⟨combine, others⟩, read, taken⟩ := ok_of_bind_ok accepted
            obtain ⟨value, readInner, made⟩ := ok_of_bind_ok taken
            cases made
            obtain ⟨sound, own, kept⟩ := besides_eq_ok_iff.mp read
            obtain ⟨rfl, entries, rfl⟩ := Members.eq_spelled_of_tail sound
            rw [Members.of_spelled] at own kept
            exact ⟨entries, others, combine, value, rfl, own, otherMembers_eq_ok_iff.mp kept,
              decodeBuffer_eq_ok_iff.mp readInner, rfl⟩
    | number | text => exact absurd accepted mismatch_ne_ok
    | _ => cases accepted
  · intro holds
    obtain ⟨entries, others, combine, value, rfl, own, kept, readInner, rfl⟩ := holds
    have read : besides fields medium (Members.of .closed (spelled entries)) =
        .ok (combine, others) := by
      rw [Members.of_spelled]
      exact besides_eq_ok_iff.mpr ⟨rfl, own, otherMembers_eq_ok_iff.mpr kept⟩
    have reads : flattened name fields inner medium (.object (spelled entries) .closed false) =
        besides fields medium (Members.of .closed (spelled entries)) >>= fun read =>
          decodeBuffer inner (.object read.2) >>= fun value => pure (read.1 value) := rfl
    rw [reads, read]
    change decodeBuffer inner (.object others) >>= _ = _
    rw [decodeBuffer_eq_ok_iff.mpr readInner]
    rfl

end Decoder

end BatchAuction.Wire
