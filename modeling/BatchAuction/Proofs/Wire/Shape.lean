import BatchAuction.Proofs.Wire.Buffering

/-!
# Shapes of formats, and members that no reader asks for

The shape of a format says which of its objects are read by the names of their members, and
what is asked for there. A document is widened where such an object gets one member more,
of a key that it does not hold yet and that nobody asks for. The object may be the whole
document or stand anywhere inside of it.
-/

set_option autoImplicit false

namespace BatchAuction.Wire

open Json

/-- What a format reads by the names of members. -/
inductive Shape where
  /-- Nothing. -/
  | plain
  | list (item : Shape)
  /-- A table has an entry for each of its members. -/
  | table (entry : Shape)
  | record (fields : List (String × Shape))
  /-- A union reads its tag, and the fields of the variant that the tag names. -/
  | union (variants : List (String × List (String × Shape)))
  /-- The members of a union stand in one object with fields of plain values. -/
  | flattened (own : List String) (variants : List (String × List (String × Shape)))

/-- Fields of plain values. -/
def Shape.plainFields (names : List String) : List (String × Shape) := names.map (·, .plain)

theorem mem_of_lookup {γ : Type} {name : String} {entries : List (String × γ)} {value : γ}
    (found : entries.lookup name = some value) : (name, value) ∈ entries := by
  obtain ⟨front, back, rfl, _⟩ := List.lookup_eq_some_iff.mp found
  exact List.mem_append_cons_self

theorem Shape.map_fst_plainFields (own : List String) : (Shape.plainFields own).map (·.1) = own := by
  rw [Shape.plainFields, List.map_map]
  exact List.map_id _

theorem Shape.lookup_plainFields {own : List String} {name : String} {inner : Shape}
    (asked : (Shape.plainFields own).lookup name = some inner) : inner = .plain := by
  obtain ⟨_, _, same⟩ := List.mem_map.mp (mem_of_lookup asked)
  exact (Prod.mk.inj same).2.symm

theorem Shape.notMem_of_lookup_plainFields {own : List String} {name : String}
    (absent : (Shape.plainFields own).lookup name = none) : name ∉ own := fun among => by
  have apart := List.lookup_eq_none_iff.mp absent _ (List.mem_map_of_mem among)
  simp at apart

/-- The fields of the variant that a tag selects, which is given by its name or, in a buffer,
by its number. -/
inductive Selects (variants : List (String × List (String × Shape))) :
    Document → List (String × Shape) → Prop where
  | name {tag : String} {fields : List (String × Shape)} :
      named? tag variants = some fields → Selects variants (.text (.ok tag)) fields
  | number {place : Int} {variant : String × List (String × Shape)} : 0 ≤ place →
      variants[place.toNat]? = some variant →
      Selects variants (.number (.ok (.integer place))) variant.2

/-- The member is the last one of its name, which is the one that counts in memory. -/
def LastOf (entries : List (String × Document)) (name : String) (document : Document) : Prop :=
  ∃ before after, entries = before ++ (name, document) :: after ∧ name ∉ after.map (·.1)

/-- The fields that the members of an object are read by. -/
inductive ReadByName : Shape → List (String × Document) → List (String × Shape) → Prop where
  | record {fields : List (String × Shape)} {entries : List (String × Document)} :
      ReadByName (.record fields) entries fields
  | union {variants : List (String × List (String × Shape))} {entries : List (String × Document)}
      {tag : Document} {fields : List (String × Shape)} :
      LastOf entries Decoder.tagName tag → Selects variants tag fields →
      ReadByName (.union variants) entries ((Decoder.tagName, .plain) :: fields)
  | flattened {own : List String} {variants : List (String × List (String × Shape))}
      {entries : List (String × Document)} {tag : Document} {fields : List (String × Shape)} :
      LastOf entries Decoder.tagName tag → Selects variants tag fields →
      ReadByName (.flattened own variants) entries
        (Shape.plainFields own ++ (Decoder.tagName, .plain) :: fields)

/-- The fields that the items of a list are read by. -/
inductive ReadByPlace : Shape → List Document → List (String × Shape) → Prop where
  | record {fields : List (String × Shape)} {items : List Document} :
      ReadByPlace (.record fields) items fields
  | union {variants : List (String × List (String × Shape))} {tag : Document}
      {items : List Document} {fields : List (String × Shape)} : Selects variants tag fields →
      ReadByPlace (.union variants) (tag :: items) ((Decoder.tagName, .plain) :: fields)

/-- The second document is the first one with one member more in one object that is read by
name. The key is new in the object and no field of it, the member stands anywhere among the
others, and its value is `new` at the depth it stands at. -/
inductive Widened (key : String) (new : Nat → Document → Prop) :
    Shape → Nat → Document → Document → Prop where
  | here {shape : Shape} {depth : Nat} {before after : List (String × Document)}
      {fields : List (String × Shape)} {extra : Document} :
      ReadByName shape (before ++ after) fields → key ∉ fields.map (·.1) →
      key ∉ (before ++ after).map (·.1) → new (depth + 1) extra →
      Widened key new shape depth (.object (spelled (before ++ after)) .closed false)
        (.object (spelled (before ++ (key, extra) :: after)) .closed false)
  | member {shape inner : Shape} {depth : Nat} {name : String} {part changed : Document}
      {before after : List (String × Document)} {fields : List (String × Shape)} :
      ReadByName shape (before ++ (name, part) :: after) fields →
      fields.lookup name = some inner → name ∉ after.map (·.1) →
      Widened key new inner (depth + 1) part changed →
      Widened key new shape depth
        (.object (spelled (before ++ (name, part) :: after)) .closed false)
        (.object (spelled (before ++ (name, changed) :: after)) .closed false)
  | place {shape inner : Shape} {depth : Nat} {name : String} {part changed : Document}
      {before after : List Document} {fields : List (String × Shape)} :
      ReadByPlace shape (before ++ part :: after) fields →
      fields[before.length]? = some (name, inner) →
      Widened key new inner (depth + 1) part changed →
      Widened key new shape depth (.list (before ++ part :: after) .closed false)
        (.list (before ++ changed :: after) .closed false)
  | item {item : Shape} {depth : Nat} {part changed : Document} {before after : List Document} :
      Widened key new item (depth + 1) part changed →
      Widened key new (.list item) depth (.list (before ++ part :: after) .closed false)
        (.list (before ++ changed :: after) .closed false)
  | entry {entry : Shape} {depth : Nat} {name : String} {part changed : Document}
      {before after : List (String × Document)} : name ∉ after.map (·.1) →
      Widened key new entry (depth + 1) part changed →
      Widened key new (.table entry) depth
        (.object (spelled (before ++ (name, part) :: after)) .closed false)
        (.object (spelled (before ++ (name, changed) :: after)) .closed false)

variable {key : String} {new other : Nat → Document → Prop} {shape : Shape} {depth : Nat}
  {document wider : Document}

theorem Widened.mono (widened : Widened key new shape depth document wider)
    (wide : ∀ depth extra, new depth extra → other depth extra) :
    Widened key other shape depth document wider := by
  induction widened with
  | here reads unknown fresh extra => exact .here reads unknown fresh (wide _ _ extra)
  | member reads field last _ ih => exact .member reads field last ih
  | place reads field _ ih => exact .place reads field ih
  | item _ ih => exact .item ih
  | entry last _ ih => exact .entry last ih

theorem Widened.not_plain : ¬ Widened key new .plain depth document wider := by
  intro widened
  cases widened with
  | here reads | member reads | place reads => cases reads

/-!
## Values that are widened
-/

/-- The document of some value. -/
def Held (_ : Nat) (document : Document) : Prop := ∃ value : Json, document = value.toDocument

theorem toDocument_eq_object_iff {value : Json} {entries : List (String × Document)}
    {ending : ObjectEnd} {tooDeep : Bool} :
    value.toDocument = .object (spelled entries) ending tooDeep ↔
      ∃ members, value = .object members ∧ heldEntries members = entries ∧ ending = .closed ∧
        tooDeep = false := by
  cases value with
  | object members =>
      rw [toDocument, ← spelled_heldEntries, Document.object.injEq, spelled_injective.eq_iff]
      simp [eq_comm]
  | _ => simp [toDocument]

theorem toDocument_eq_list_iff {value : Json} {documents : List Document} {ending : ListEnd}
    {tooDeep : Bool} :
    value.toDocument = .list documents ending tooDeep ↔
      ∃ items, value = .list items ∧ items.map toDocument = documents ∧ ending = .closed ∧
        tooDeep = false := by
  cases value with
  | list items => simp [toDocument, itemDocuments_eq_map, eq_comm]
  | _ => simp [toDocument]

theorem toDocument_object (members : List (String × Json)) :
    (Json.object members).toDocument = .object (spelled (heldEntries members)) .closed false := by
  rw [toDocument, spelled_heldEntries]

theorem toDocument_list (items : List Json) :
    (Json.list items).toDocument = .list (items.map toDocument) .closed false := by
  rw [toDocument, itemDocuments_eq_map]

theorem heldEntries_injective : Function.Injective heldEntries :=
  List.map_injective_iff.mpr fun _ _ same =>
    Prod.ext (Prod.mk.inj same).1 (toDocument_inj (Prod.mk.inj same).2)

theorem heldEntries_eq_append_iff {members : List (String × Json)}
    {before after : List (String × Document)} :
    heldEntries members = before ++ after ↔
      ∃ front back, members = front ++ back ∧ heldEntries front = before ∧
        heldEntries back = after :=
  List.map_eq_append_iff

theorem heldEntries_eq_split_iff {members : List (String × Json)} {name : String}
    {part : Document} {before after : List (String × Document)} :
    heldEntries members = before ++ (name, part) :: after ↔
      ∃ front value back, members = front ++ (name, value) :: back ∧
        heldEntries front = before ∧ value.toDocument = part ∧ heldEntries back = after := by
  rw [heldEntries_eq_append_iff]
  constructor
  · intro holds
    obtain ⟨front, rest, rfl, same, split⟩ := holds
    obtain ⟨member, back, rfl, own, rest⟩ := List.map_eq_cons_iff.mp split
    cases own
    exact ⟨front, member.2, back, rfl, same, rfl, rest⟩
  · intro holds
    obtain ⟨front, value, back, rfl, rfl, rfl, rfl⟩ := holds
    exact ⟨front, (name, value) :: back, rfl, rfl, rfl⟩

theorem heldEntries_split (front back : List (String × Json)) (name : String) (value : Json) :
    heldEntries (front ++ (name, value) :: back) =
      heldEntries front ++ (name, value.toDocument) :: heldEntries back :=
  heldEntries_append ..

theorem map_toDocument_eq_split_iff {items : List Json} {part : Document}
    {before after : List Document} :
    items.map toDocument = before ++ part :: after ↔
      ∃ front value back, items = front ++ value :: back ∧ front.map toDocument = before ∧
        value.toDocument = part ∧ back.map toDocument = after := by
  rw [List.map_eq_append_iff]
  constructor
  · intro holds
    obtain ⟨front, rest, rfl, same, split⟩ := holds
    obtain ⟨value, back, rfl, own, rest⟩ := List.map_eq_cons_iff.mp split
    exact ⟨front, value, back, rfl, same, own, rest⟩
  · intro holds
    obtain ⟨front, value, back, rfl, rfl, rfl, rfl⟩ := holds
    exact ⟨front, value :: back, rfl, rfl, rfl⟩

/-- Two objects that differ in one member. -/
theorem exists_objects {value other : Json} {name : String} {part changed : Document}
    {before after : List (String × Document)}
    (same : value.toDocument = .object (spelled (before ++ (name, part) :: after)) .closed false)
    (otherSame : other.toDocument =
      .object (spelled (before ++ (name, changed) :: after)) .closed false) :
    ∃ front old new back, value = .object (front ++ (name, old) :: back) ∧
      other = .object (front ++ (name, new) :: back) ∧ heldEntries front = before ∧
      heldEntries back = after ∧ old.toDocument = part ∧ new.toDocument = changed := by
  obtain ⟨_, rfl, held, _⟩ := toDocument_eq_object_iff.mp same
  obtain ⟨_, rfl, otherHeld, _⟩ := toDocument_eq_object_iff.mp otherSame
  obtain ⟨front, old, back, rfl, rfl, own, rfl⟩ := heldEntries_eq_split_iff.mp held
  obtain ⟨_, new, _, rfl, sameFront, otherOwn, sameBack⟩ := heldEntries_eq_split_iff.mp otherHeld
  rw [heldEntries_injective sameFront, heldEntries_injective sameBack]
  exact ⟨front, old, new, back, rfl, rfl, rfl, rfl, own, otherOwn⟩

/-- Two lists that differ in one item. -/
theorem exists_lists {value other : Json} {part changed : Document} {before after : List Document}
    (same : value.toDocument = .list (before ++ part :: after) .closed false)
    (otherSame : other.toDocument = .list (before ++ changed :: after) .closed false) :
    ∃ front old new back, value = .list (front ++ old :: back) ∧
      other = .list (front ++ new :: back) ∧ front.map toDocument = before ∧
      back.map toDocument = after ∧ old.toDocument = part ∧ new.toDocument = changed := by
  obtain ⟨_, rfl, held, _⟩ := toDocument_eq_list_iff.mp same
  obtain ⟨_, rfl, otherHeld, _⟩ := toDocument_eq_list_iff.mp otherSame
  obtain ⟨front, old, back, rfl, rfl, own, rfl⟩ := map_toDocument_eq_split_iff.mp held
  obtain ⟨_, new, _, rfl, sameFront, otherOwn, sameBack⟩ :=
    map_toDocument_eq_split_iff.mp otherHeld
  have injective : Function.Injective (List.map toDocument) :=
    List.map_injective_iff.mpr fun _ _ => toDocument_inj
  rw [injective sameFront, injective sameBack]
  exact ⟨front, old, new, back, rfl, rfl, rfl, rfl, own, otherOwn⟩

/-- With the document of a value in it, the document of a value is that of a value again. -/
theorem Widened.exists_value {value : Json}
    (widened : Widened key Held shape depth value.toDocument wider) :
    ∃ other : Json, wider = other.toDocument := by
  generalize same : value.toDocument = document at widened
  induction widened generalizing value with
  | here _ _ _ extra =>
      obtain ⟨members, rfl, held, _⟩ := toDocument_eq_object_iff.mp same
      obtain ⟨front, back, rfl, rfl, rfl⟩ := heldEntries_eq_append_iff.mp held
      obtain ⟨extra, rfl⟩ := extra
      exact ⟨.object (front ++ (_, extra) :: back), by rw [toDocument_object, heldEntries_split]⟩
  | @member _ _ _ name _ _ _ _ _ _ _ _ _ ih | @entry _ _ name _ _ _ _ _ _ ih =>
      obtain ⟨members, rfl, held, _⟩ := toDocument_eq_object_iff.mp same
      obtain ⟨front, part, back, rfl, rfl, own, rfl⟩ := heldEntries_eq_split_iff.mp held
      obtain ⟨changed, rfl⟩ := ih own
      exact ⟨.object (front ++ (name, changed) :: back), by
        rw [toDocument_object, heldEntries_split]⟩
  | place _ _ _ ih | item _ ih =>
      obtain ⟨items, rfl, held, _⟩ := toDocument_eq_list_iff.mp same
      obtain ⟨front, part, back, rfl, rfl, own, rfl⟩ := map_toDocument_eq_split_iff.mp held
      obtain ⟨changed, rfl⟩ := ih own
      exact ⟨.list (front ++ changed :: back), by
        rw [toDocument_list, List.map_append, List.map_cons]⟩

/-!
## Sorted values
-/

theorem Selects.sorted {variants : List (String × List (String × Shape))}
    {fields : List (String × Shape)} {tag : Json} (selects : Selects variants tag.toDocument fields) :
    Selects variants tag.sorted.toDocument fields := by
  -- Names and numbers stay as they are when the value is sorted.
  cases tag with
  | text | number => exact selects
  | _ => cases selects

/-- Sorting takes a member that is the last one of its name between the others. -/
theorem exists_sorted_split {name : String} (front : List (String × Json))
    {back : List (String × Json)} (last : name ∉ back.map (·.1)) :
    ∃ before after, name ∉ after.map (·.1) ∧ ∀ value : Json,
      sortMembers (sortedMembers (front ++ (name, value) :: back)) =
        before ++ (name, value.sorted) :: after := by
  rw [← map_fst_sortedMembers] at last
  obtain ⟨before, after, settled⟩ := exists_sortMembers_split (sortedMembers front) last
  have keys := keys_nodup_sortMembers (sortedMembers front ++ (name, .null) :: sortedMembers back)
  rw [settled, List.map_append, List.map_cons] at keys
  refine ⟨before, after, (List.nodup_cons.mp (List.nodup_append.mp keys).2.1).1, fun value => ?_⟩
  rw [sortedMembers_append, sortedMembers, settled]

theorem LastOf.sorted {members : List (String × Json)} {name : String} {document : Document}
    (last : LastOf (heldEntries members) name document) :
    ∃ value : Json, document = value.toDocument ∧
      LastOf (heldEntries (sortMembers (sortedMembers members))) name value.sorted.toDocument := by
  obtain ⟨before, after, split, fresh⟩ := last
  obtain ⟨front, value, back, rfl, rfl, rfl, rfl⟩ := heldEntries_eq_split_iff.mp split
  rw [map_fst_heldEntries] at fresh
  obtain ⟨before, after, placed, settled⟩ := exists_sorted_split front fresh
  refine ⟨value, rfl, heldEntries before, heldEntries after, ?_, ?_⟩
  · rw [settled, heldEntries_split]
  · rwa [map_fst_heldEntries]

theorem ReadByName.sorted {members : List (String × Json)} {fields : List (String × Shape)}
    (reads : ReadByName shape (heldEntries members) fields) :
    ReadByName shape (heldEntries (sortMembers (sortedMembers members))) fields := by
  cases reads with
  | record => exact .record
  | union last selects =>
      obtain ⟨tag, rfl, placed⟩ := last.sorted
      exact .union placed selects.sorted
  | flattened last selects =>
      obtain ⟨tag, rfl, placed⟩ := last.sorted
      exact .flattened placed selects.sorted

theorem ReadByPlace.sorted {items : List Json} {fields : List (String × Shape)}
    (reads : ReadByPlace shape (items.map toDocument) fields) :
    ReadByPlace shape ((sortedItems items).map toDocument) fields := by
  cases items with
  | nil => exact reads
  | cons item rest =>
      cases reads with
      | record => exact .record
      | union selects => exact .union selects.sorted

/-- Sorted in memory, the wider value is still the other one with one member more. -/
theorem Widened.sorted {value other : Json}
    (widened : Widened key Held shape depth value.toDocument other.toDocument) :
    Widened key Held shape depth value.sorted.toDocument other.sorted.toDocument := by
  generalize same : value.toDocument = document at widened
  generalize otherSame : other.toDocument = wider at widened
  induction widened generalizing value other with
  | here reads unknown fresh _ =>
      obtain ⟨_, rfl, held, _⟩ := toDocument_eq_object_iff.mp same
      obtain ⟨_, rfl, otherHeld, _⟩ := toDocument_eq_object_iff.mp otherSame
      obtain ⟨front, back, rfl, rfl, rfl⟩ := heldEntries_eq_append_iff.mp held
      obtain ⟨_, extra, _, rfl, sameFront, _, sameBack⟩ := heldEntries_eq_split_iff.mp otherHeld
      rw [heldEntries_injective sameFront, heldEntries_injective sameBack]
      rw [← heldEntries_append] at reads fresh
      rw [map_fst_heldEntries, ← map_fst_sortedMembers, sortedMembers_append] at fresh
      -- The new member goes to the place of its key, and the others keep their order.
      obtain ⟨before, after, narrow, apart, wide⟩ := exists_sortMembers_between fresh
      have reads := reads.sorted
      rw [sortedMembers_append, narrow, heldEntries_append] at reads
      rw [Json.sorted, Json.sorted, toDocument_object, toDocument_object, sortedMembers_append,
        sortedMembers_append, sortedMembers, wide, narrow, heldEntries_append, heldEntries_split]
      refine .here reads unknown ?_ ⟨extra.sorted, rfl⟩
      rwa [← heldEntries_append, map_fst_heldEntries]
  | member reads field fresh _ ih =>
      -- Of several members of a name the last one is left, which is the widened one.
      obtain ⟨front, old, new, back, rfl, rfl, rfl, rfl, rfl, rfl⟩ := exists_objects same otherSame
      rw [map_fst_heldEntries] at fresh
      obtain ⟨before, after, placed, settled⟩ := exists_sorted_split front fresh
      rw [← heldEntries_split] at reads
      have reads := reads.sorted
      rw [settled, heldEntries_split] at reads
      rw [Json.sorted, Json.sorted, toDocument_object, toDocument_object, settled, settled,
        heldEntries_split, heldEntries_split]
      exact .member reads field (by rwa [map_fst_heldEntries]) (ih rfl rfl)
  | place reads field _ ih =>
      obtain ⟨front, old, new, back, rfl, rfl, rfl, rfl, rfl, rfl⟩ := exists_lists same otherSame
      rw [← List.map_cons, ← List.map_append] at reads
      have reads := reads.sorted
      rw [sortedItems_append, sortedItems, List.map_append, List.map_cons] at reads
      rw [Json.sorted, Json.sorted, toDocument_list, toDocument_list, sortedItems_append,
        sortedItems_append, sortedItems, sortedItems, List.map_append, List.map_append,
        List.map_cons, List.map_cons]
      rw [List.length_map, ← length_sortedItems, ← List.length_map (f := toDocument)] at field
      exact .place reads field (ih rfl rfl)
  | item _ ih =>
      obtain ⟨front, old, new, back, rfl, rfl, rfl, rfl, rfl, rfl⟩ := exists_lists same otherSame
      rw [Json.sorted, Json.sorted, toDocument_list, toDocument_list, sortedItems_append,
        sortedItems_append, sortedItems, sortedItems, List.map_append, List.map_append,
        List.map_cons, List.map_cons]
      exact .item (ih rfl rfl)
  | entry fresh _ ih =>
      obtain ⟨front, old, new, back, rfl, rfl, rfl, rfl, rfl, rfl⟩ := exists_objects same otherSame
      rw [map_fst_heldEntries] at fresh
      obtain ⟨before, after, placed, settled⟩ := exists_sorted_split front fresh
      rw [Json.sorted, Json.sorted, toDocument_object, toDocument_object, settled, settled,
        heldEntries_split, heldEntries_split]
      exact .entry (by rwa [map_fst_heldEntries]) (ih rfl rfl)

end BatchAuction.Wire
