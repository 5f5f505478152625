import BatchAuction.Proofs.Wire.Outcome

/-!
# What enumerations and alternatives make of values

The equations of `BatchAuction.Proofs.Wire.Outcome` for values with a fixed set of names,
for unions, for values that may be written in two ways and for objects that hold the
members of another value.
-/

set_option autoImplicit false

namespace BatchAuction.Wire

open Json

variable {α β σ : Type} {medium : Medium} {members : List (String × Json)}

@[simp] theorem toOption_namedOrUnknown (entries : List (String × α)) (name : String) :
    (namedOrUnknown entries name).toOption = named? name entries := by
  unfold namedOrUnknown
  cases named? name entries <;> rfl

theorem mem_of_named? {name : String} {entries : List (String × α)} {value : α}
    (named : named? name entries = some value) : (name, value) ∈ entries := by
  obtain ⟨entry, found, rfl⟩ := Option.map_eq_some_iff.mp named
  have same : entry.1 = name := by simpa using List.find?_some found
  exact same ▸ List.mem_of_find?_eq_some found

namespace Decoder

/-!
## Enumerations
-/

/-- A name, or an object with the name as its only key and null for its value. -/
def name? : Json → Option String
  | .text name => some name
  | .object [(name, .null)] => some name
  | _ => none

private theorem name?_singleton (medium : Medium) (name : String) (value : Json) :
    name? (.object [(name, value)]) =
      (nothing.outcome? medium value).map fun _ => name := by
  cases value <;> rfl

theorem name?_object_of_two_le (several : 2 ≤ members.length) : name? (.object members) = none := by
  match members with
  | _ :: _ :: _ => simp [name?]

private theorem toOption_nameInText (entries : List (String × α))
    (members : List (String × Json)) :
    (nameInText entries .closed (memberDocuments members)).toOption =
      (name? (.object members)).bind (named? · entries) := by
  match members with
  | [] => rfl
  | [(name, value)] =>
      have value_eq : (nothing .text value.toDocument).toOption =
        nothing.outcome? .text value := rfl
      simp only [memberDocuments, nameInText, toOption_bind, toOption_namedOrUnknown,
        toOption_mapError, value_eq, name?_singleton .text]
      cases nothing.outcome? .text value with
      | none => cases named? name entries <;> rfl
      | some _ =>
          simp only [Option.map_some, Option.bind_some]
          cases named? name entries <;> rfl
  | (name, value) :: next :: rest =>
      rw [name?_object_of_two_le (by simp)]
      simp only [memberDocuments, nameInText, toOption_bind, toOption_namedOrUnknown,
        toOption_mapError]
      cases named? name entries <;> cases (nothing .text value.toDocument).toOption <;> rfl

private theorem toOption_nameInObject (entries : List (String × α)) (medium : Medium)
    (members : List (String × Json)) :
    (nameInObject entries medium (memberDocuments members)).toOption =
      (name? (.object members)).bind (named? · entries) := by
  match members with
  | [] => rfl
  | [(name, value)] =>
      have value_eq : (nothing medium value.toDocument).toOption =
        nothing.outcome? medium value := rfl
      simp only [memberDocuments, nameInObject, toOption_bind, toOption_namedOrUnknown,
        toOption_mapError, value_eq, name?_singleton medium]
      cases nothing.outcome? medium value with
      | none => cases named? name entries <;> rfl
      | some _ =>
          simp only [Option.map_some, Option.bind_some]
          cases named? name entries <;> rfl
  | (name, value) :: next :: rest =>
      rw [name?_object_of_two_le (by simp)]
      rfl

/-- An enumeration accepts its names in every form, as texts or as keys. -/
theorem outcome?_oneOf (entries : List (String × α)) (medium : Medium) (value : Json) :
    (oneOf entries).outcome? medium value = (name? value).bind (named? · entries) := by
  cases value with
  | text name => exact toOption_namedOrUnknown entries name
  | object members =>
      cases medium with
      | text => exact toOption_nameInText entries members
      | value => exact toOption_nameInObject entries .value members
      | buffer => exact toOption_nameInObject entries .buffer members
  | _ => cases medium <;> rfl

/-!
## Unions
-/

/-- A tag is a name, or in a buffer the number of a name. -/
theorem outcome?_tag (entries : List (String × α)) (medium : Medium) (value : Json) :
    (tag entries).outcome? medium value =
      match value with
      | .text name => named? name entries
      | .number (.integer index) =>
          if medium = .buffer ∧ 0 ≤ index then (entries[index.toNat]?).map (·.2) else none
      | _ => none := by
  match value with
  | .text name => exact toOption_namedOrUnknown entries name
  | .number (.integer index) =>
      unfold outcome? tag
      cases medium with
      | buffer =>
          by_cases below : index < 0
          · simp [toDocument, below, Int.not_le.mpr below]
          · cases found : entries[index.toNat]? <;>
              simp [toDocument, below, Int.not_lt.mp below, found, Except.toOption]
      | _ => simp [toDocument]
  | .number (.real _) | .null | .boolean _ | .list _ | .object _ => cases medium <;> rfl

/-- A tag chooses one of the variants. -/
theorem mem_of_outcome?_tag {entries : List (String × α)} {value : Json} {chosen : α}
    (chooses : (tag entries).outcome? medium value = some chosen) :
    ∃ name, (name, chosen) ∈ entries := by
  rw [outcome?_tag] at chooses
  split at chooses
  · exact ⟨_, mem_of_named? chooses⟩
  · split at chooses
    · obtain ⟨entry, found, rfl⟩ := Option.map_eq_some_iff.mp chooses
      exact ⟨entry.1, List.mem_of_getElem? found⟩
    · cases chooses
  · cases chooses

/-- The members of other names than the tag. -/
def withoutTag (members : List (String × Json)) : List (String × Json) :=
  members.filter (·.1 != tagName)

theorem withoutTag_of_notMem (absent : tagName ∉ members.map (·.1)) :
    withoutTag members = members :=
  List.filter_eq_self.mpr fun member among =>
    bne_iff_ne.mpr fun same => absent (List.mem_map.mpr ⟨member, among, same⟩)

/-- Where no further tag follows, the members are buffered as they are. -/
private theorem untag_of_notMem (variants : List (String × α)) (all : Members)
    (sound : all.tail = none) (found : Option α) (absent : tagName ∉ members.map (·.1)) :
    untag tagName variants medium all found (Members.held members).entries =
      .ok ⟨found, members⟩ := by
  unfold Members.held
  induction members with
  | nil => simp [untag, sound]
  | cons head rest ih =>
      rw [List.map_cons, List.mem_cons, not_or] at absent
      have ih := ih absent.2
      simp only [List.map_cons, untag, if_neg (Ne.symm absent.1), readValue_toDocument] at ih ⊢
      rw [ih]
      rfl

private theorem toOption_untag (variants : List (String × α)) (all : Members)
    (sound : all.tail = none) (distinct : (members.map (·.1)).Nodup) :
    (untag tagName variants medium all none (Members.held members).entries).toOption =
      match members.lookup tagName with
      | some value => ((tag variants).outcome? medium value).map (⟨some ·, withoutTag members⟩)
      | none => some ⟨none, members⟩ := by
  induction members with
  | nil => simp [Members.held, untag, sound, Except.toOption]
  | cons head rest ih =>
      obtain ⟨key, value⟩ := head
      obtain ⟨fresh, restDistinct⟩ := List.nodup_cons.mp distinct
      have unfolded : (Members.held ((key, value) :: rest)).entries =
        (key, value.toDocument) :: (Members.held rest).entries := rfl
      rw [unfolded, untag, List.lookup_cons]
      by_cases same : key = tagName
      · -- No key repeats, so no second tag follows and the rest is kept as it is.
        subst same
        have rest_eq : withoutTag ((tagName, value) :: rest) = rest := by
          rw [withoutTag, List.filter_cons_of_neg (by simp)]
          exact withoutTag_of_notMem fresh
        rw [if_pos rfl, beq_self_eq_true, rest_eq]
        simp only [toOption_bind, toOption_mapError]
        rw [outcome?]
        cases (tag variants medium value.toDocument).toOption with
        | none => rfl
        | some chosen =>
            rw [Option.bind_some, untag_of_notMem variants all sound _ fresh]
            rfl
      · have kept : withoutTag ((key, value) :: rest) = (key, value) :: withoutTag rest :=
          List.filter_cons_of_pos (bne_iff_ne.mpr same)
        rw [if_neg same, beq_eq_false_iff_ne.mpr (Ne.symm same), kept]
        simp only [toOption_bind, readValue_toDocument, ih restDistinct]
        cases rest.lookup tagName with
        | none => rfl
        | some found =>
            dsimp only
            cases (tag variants).outcome? medium found <;> rfl

/-- What a union makes of the members of an object once the tag is taken out. -/
def Untagged.read (untagged : Untagged (Decoder α)) : Except Error α :=
  match untagged.tag with
  | some variant => decodeBuffer variant (.object untagged.others)
  | none => throw (.here (.missingField tagName))

/-- A union takes the variant that the member of the tag names, wherever it stands, and
lets it read the other members from a buffer. -/
theorem outcome?_union_object (name : String) (variants : List (String × Decoder α))
    (distinct : (members.map (·.1)).Nodup) :
    (union name variants).outcome? medium (.object members) =
      (members.lookup tagName).bind fun value =>
        ((tag variants).outcome? medium value).bind fun variant =>
          variant.outcome? .buffer (.object (withoutTag members)) := by
  have reads : (union name variants).outcome? medium (.object members) =
      (do
        let members := Members.of .closed (memberDocuments members)
        let untagged ← untag tagName variants medium members none members.entries
        untagged.read : Except Error α).toOption := rfl
  rw [reads, Members.of_memberDocuments]
  dsimp only
  rw [toOption_bind, toOption_untag variants _ rfl distinct]
  cases members.lookup tagName with
  | none => rfl
  | some value =>
      cases chosen : (tag variants).outcome? medium value with
      | none => simp [chosen]
      | some variant =>
          simp only [chosen, Option.map_some, Option.bind_some]
          exact toOption_decodeBuffer ..

/-- In a list the tag comes first. -/
theorem outcome?_union_list (name : String) (variants : List (String × Decoder α))
    (items : List Json) :
    (union name variants).outcome? medium (.list items) =
      match items with
      | [] => none
      | first :: rest =>
          ((tag variants).outcome? medium first).bind fun variant =>
            variant.outcome? .buffer (.list rest) := by
  cases items with
  | nil => rfl
  | cons first rest =>
      have reads : (union name variants).outcome? medium (.list (first :: rest)) =
          (do
            let variant ← (tag variants medium first.toDocument).mapError (.under (.element 0))
            let others ← readItems .closed 1 (itemDocuments rest)
            decodeBuffer variant (.list others) : Except Error α).toOption := rfl
      rw [reads, readItems_itemDocuments]
      simp only [toOption_bind, toOption_mapError]
      congr 1
      funext variant
      exact toOption_decodeBuffer ..

/-!
## Alternatives
-/

theorem outcome?_either (first second : Decoder α) (value : Json) :
    (either first second).outcome? medium value =
      (first.outcome? .buffer value).or (second.outcome? .buffer value) := by
  rw [← toOption_decodeBuffer, ← toOption_decodeBuffer]
  unfold outcome? either
  rw [readValue_toDocument, toOption_bind, toOption_ok, Option.bind_some]
  cases decodeBuffer first value with
  | ok result => rfl
  | error error => cases decodeBuffer second value <;> rfl

theorem outcome?_firstOf (name : String) (alternatives : List (Decoder α)) (value : Json) :
    (firstOf name alternatives).outcome? medium value =
      alternatives.findSome? (·.outcome? .buffer value) := by
  simp only [← toOption_decodeBuffer]
  unfold outcome? firstOf
  rw [readValue_toDocument, toOption_bind, toOption_ok, Option.bind_some]
  cases alternatives.findSome? fun decoder => (decodeBuffer decoder value).toOption <;> rfl

private theorem otherMembers_held (names : List String) (place : Nat)
    (members : List (String × Json)) :
    otherMembers names place (Members.held members).entries =
      .ok (members.filter fun member => !names.contains member.1) := by
  unfold Members.held
  induction members generalizing place with
  | nil => rfl
  | cons head rest ih =>
      have ih := ih (place + 1)
      simp only [List.map_cons, otherMembers, readValue_toDocument, List.filter_cons] at ih ⊢
      rw [ih]
      cases names.contains head.1 <;> rfl

/-- Fields beside the members of another value take the members of their names and leave
the others to it. -/
theorem outcome?_flattened (name : String) (fields : Fields σ (α → β)) (inner : Decoder α)
    (members : List (String × Json)) :
    (flattened name fields inner).outcome? medium (.object members) =
      (fields.ofMembers? medium members).bind fun combine =>
        (inner.outcome? .buffer
          (.object (members.filter fun member => !fields.names.contains member.1))).map combine := by
  have reads : (flattened name fields inner).outcome? medium (.object members) =
      (do
        let members := Members.of .closed (memberDocuments members)
        let tail := members.tail.map fun error => ⟨members.entries.length, error⟩
        let outcome := Fields.unlessEarlier
          (PlacedResult.both Prod.mk (fields.fromMembers medium members)
            (otherMembers fields.names 0 members.entries)) tail
        let read ← outcome.mapError (·.error)
        let value ← decodeBuffer inner (.object read.2)
        return read.1 value : Except Error β).toOption := rfl
  rw [reads, Members.of_memberDocuments]
  dsimp only
  rw [otherMembers_held]
  unfold Fields.ofMembers?
  cases fields.fromMembers medium (.held members) with
  | error placed => rfl
  | ok combine =>
      change (decodeBuffer inner _ >>= fun value => pure (combine value)).toOption = _
      rw [toOption_bind, toOption_decodeBuffer]
      cases inner.outcome? .buffer _ <;> rfl

end Decoder

end BatchAuction.Wire
