import BatchAuction.Proofs.Wire.Records
import BatchAuction.Proofs.Wire.Shape

/-!
# Decoders that overlook what they do not ask for

A decoder overlooks widening by its shape: what it accepts it still accepts with a member
that nobody asks for, and makes the same of it. A record passes over such a member where it
reads it as it comes; a union and an object that holds the members of another value buffer
it, and it is passed over where the buffer is read. Each way of building a decoder keeps
this.
-/

set_option autoImplicit false

namespace BatchAuction.Wire

open Json

variable {α β σ : Type} {key : String} {depth : Nat} {document wider : Document}

/-- Widening by the shape makes no difference to what the decoder accepts. -/
def Decoder.Overlooks (decoder : Decoder α) (shape : Shape) : Prop :=
  ∀ ⦃key : String⦄ ⦃depth : Nat⦄ ⦃document wider : Document⦄,
    Widened key Held shape depth document wider → ∀ medium result,
      decoder medium document = .ok result → decoder medium wider = .ok result

/-- The parts of the second record are those of the first one, perhaps widened. -/
def PartsWidened (key : String) (fields : List (String × Shape))
    (parts others : String → Option Document) : Prop :=
  ∀ field ∈ fields, parts field.1 = others field.1 ∨ ∃ depth part changed,
    parts field.1 = some part ∧ others field.1 = some changed ∧
      Widened key Held field.2 depth part changed

/-- The fields have the names of the shapes and overlook that their parts are widened. -/
structure Fields.Overlooks (fields : Fields σ α) (shapes : List (String × Shape)) : Prop where
  names_eq : fields.names = shapes.map (·.1)
  reads : ∀ medium, ∃ made, fields.Reads medium made ∧ ∀ key parts others record,
    PartsWidened key shapes parts others → made parts record → made others record

/-!
## Members beside others
-/

variable {before after : List (String × Document)} {name other : String}

theorem lookup_insert (apart : other ≠ name) (document : Document) :
    (before ++ (name, document) :: after).lookup other = (before ++ after).lookup other := by
  rw [List.lookup_append, List.lookup_append, lookup_cons_eq_ite, if_neg apart]

theorem count_insert (apart : other ≠ name) (document : Document) :
    ((before ++ (name, document) :: after).map (·.1)).count other =
      ((before ++ after).map (·.1)).count other := by
  simp [apart.symm]

theorem map_fst_exchange (part changed : Document) :
    (before ++ (name, changed) :: after).map (·.1) =
      (before ++ (name, part) :: after).map (·.1) := by
  simp

theorem mem_exchange {γ : Type} {before after : List γ} {part changed item : γ}
    (among : item ∈ before ++ part :: after) (apart : item ≠ part) :
    item ∈ before ++ changed :: after := by
  rcases List.mem_append.mp among with among | among
  · exact List.mem_append_left _ among
  · exact List.mem_append_right _ (.tail _ ((List.mem_cons.mp among).resolve_left apart))

theorem getElem?_middle {γ : Type} {before after : List γ} {item : γ} :
    (before ++ item :: after)[before.length]? = some item := by
  rw [List.getElem?_append_right (Nat.le_refl _), Nat.sub_self]
  rfl

theorem getElem?_exchange {γ : Type} {before after : List γ} {index : Nat}
    (apart : index ≠ before.length) (part changed : γ) :
    (before ++ part :: after)[index]? = (before ++ changed :: after)[index]? := by
  rw [List.getElem?_append, List.getElem?_append]
  split
  · rfl
  · rw [List.getElem?_cons, List.getElem?_cons, if_neg (by omega), if_neg (by omega)]

/-!
## Decoders of the same document
-/

namespace Decoder

variable {decoder : Decoder α} {shape : Shape}

theorem overlooks_plain (decoder : Decoder α) : decoder.Overlooks .plain :=
  fun _ _ _ _ widened => absurd widened Widened.not_plain

theorem constant_overlooks (value : α) (shape : Shape) : (constant value).Overlooks shape := by
  intro key depth document wider widened medium result accepted
  -- A list that has an item to be widened in is refused anyway.
  cases widened with
  | here => exact accepted
  | member => exact accepted
  | entry => exact accepted
  | @place _ _ _ _ _ _ before => cases before <;> cases accepted
  | @item _ _ _ _ before => cases before <;> cases accepted

theorem Overlooks.map (overlooks : decoder.Overlooks shape) (change : α → β) :
    (decoder.map change).Overlooks shape := by
  intro key depth document wider widened medium result accepted
  obtain ⟨value, read, rfl⟩ := ok_of_map_ok accepted
  change (decoder medium wider).map change = _
  rw [overlooks widened medium value read]
  rfl

theorem option_of_ne_null {medium : Medium} (other : document ≠ .null) :
    decoder.option medium document = (decoder medium document).map some := by
  cases document with
  | null => exact absurd rfl other
  | _ => rfl

theorem Overlooks.option (overlooks : decoder.Overlooks shape) :
    decoder.option.Overlooks shape := by
  intro key depth document wider widened
  have container : document ≠ .null ∧ wider ≠ .null := by cases widened <;> exact ⟨nofun, nofun⟩
  intro medium result accepted
  rw [option_of_ne_null container.1] at accepted
  rw [option_of_ne_null container.2]
  exact overlooks.map some widened medium result accepted

/-!
## Lists and tables
-/

theorem forall₂_exchange {γ δ : Type} {related : γ → δ → Prop} {part changed : γ}
    {before after : List γ} {values : List δ} (kept : ∀ value, related part value → related changed value)
    (each : List.Forall₂ related (before ++ part :: after) values) :
    List.Forall₂ related (before ++ changed :: after) values := by
  induction before generalizing values with
  | nil =>
      cases each with
      | cons first rest => exact .cons (kept _ first) rest
  | cons item before ih =>
      cases each with
      | cons first rest => exact .cons first (ih rest)

theorem Overlooks.list (overlooks : decoder.Overlooks shape) :
    decoder.list.Overlooks (.list shape) := by
  intro key depth document wider widened medium result accepted
  cases widened with
  | here reads | member reads | place reads => cases reads
  | item widened =>
      obtain ⟨items, same, each⟩ := list_eq_ok_iff.mp accepted
      cases same
      exact list_eq_ok_iff.mpr ⟨_, rfl, forall₂_exchange (overlooks widened medium) each⟩

theorem table_spelled_eq_ok_iff {repetition : Repetition} {codec : Codec α} {medium : Medium}
    {members : List (String × Document)} {table : AddressMap α} :
    (Codec.table repetition codec).decode medium (.object (spelled members) .closed false) =
        .ok table ↔
      ∃ entries, List.Forall₂ (EntryOf codec.decode medium) members entries ∧
        repetition.Accepts ((entries ++ (AddressMap.empty : AddressMap α).entries).map (·.1)) ∧
        AddressMap.empty.insertAll entries = table := by
  have whole : (Codec.table repetition codec).decode medium
      (.object (spelled members) .closed false) =
    readTable repetition codec.decode medium (tableTail (.of .closed (spelled members)))
      .empty (Members.of .closed (spelled members)).entries := rfl
  rw [whole, Members.of_spelled, readTable_eq_ok_iff]
  exact and_iff_right rfl

theorem Overlooks.table {codec : Codec α} (overlooks : codec.decode.Overlooks shape)
    (repetition : Repetition) : (Codec.table repetition codec).decode.Overlooks (.table shape) := by
  intro key depth document wider widened medium result accepted
  cases widened with
  | here reads | member reads | place reads => cases reads
  | entry _ widened =>
      obtain ⟨entries, each, distinct, made⟩ := table_spelled_eq_ok_iff.mp accepted
      refine table_spelled_eq_ok_iff.mpr ⟨entries, forall₂_exchange (fun entry held => ?_) each,
        distinct, made⟩
      exact ⟨held.1, overlooks widened medium entry.2 held.2⟩

end Decoder

/-!
## Records
-/

namespace Fields

variable {fields : Fields σ (α → β)} {shapes : List (String × Shape)}

theorem overlooks_pure (value : α) : (pure value : Fields σ α).Overlooks [] where
  names_eq := rfl
  reads _ := ⟨_, reads_pure value, fun _ _ _ _ _ made => made⟩

theorem Overlooks.field (overlooks : fields.Overlooks shapes) {name : String}
    {decode : Decoder α} {shape : Shape} (inner : decode.Overlooks shape) {absent : Option α}
    {write : σ → List (String × Json)} :
    (fields <*> member name decode absent write).Overlooks (shapes ++ [(name, shape)]) where
  names_eq := by rw [names_seq_member, overlooks.names_eq, List.map_append]; rfl
  reads medium := by
    obtain ⟨made, reads, kept⟩ := overlooks.reads medium
    refine ⟨_, reads.field, ?_⟩
    intro key parts others record widened holds
    rw [PartsWidened, List.forall_mem_append, List.forall_mem_singleton] at widened
    obtain ⟨rest, own⟩ := widened
    obtain ⟨make, before, part, takes, same⟩ := holds
    refine ⟨make, kept key parts others make rest before, part, ?_, same⟩
    rcases own with same | ⟨_, _, _, old, new, widened⟩
    · rwa [← same]
    · rw [old] at takes
      rw [new]
      exact inner widened medium part takes

theorem part?_list (names : List String) (items : List Document) (name : String) :
    part? names (.list items .closed false) name = items[names.idxOf name]? := rfl

theorem Overlooks.plain (overlooks : fields.Overlooks shapes) {name : String}
    {decode : Decoder α} {absent : Option α} {write : σ → List (String × Json)} :
    (fields <*> member name decode absent write).Overlooks (shapes ++ [(name, .plain)]) :=
  overlooks.field (Decoder.overlooks_plain decode)

theorem holdsRecord_object_iff {names : List String} {entries : List (String × Document)} :
    HoldsRecord names (.object (spelled entries) .closed false) ↔
      (∀ name ∈ names, (entries.map (·.1)).count name ≤ 1) ∧
        ∀ entry ∈ entries, entry.1 ∉ names → entry.2.skip? = none := by
  constructor
  · intro holds
    generalize same : spelled entries = members at holds
    cases holds with
    | object once strays =>
        cases spelled_injective same
        exact ⟨once, strays⟩
  · intro holds
    exact .object holds.1 holds.2

theorem holdsRecord_here (unknown : key ∉ shapes.map (·.1))
    {extra : Document} (sound : extra.skip? = none)
    (holds : HoldsRecord (shapes.map (·.1)) (.object (spelled (before ++ after)) .closed false)) :
    HoldsRecord (shapes.map (·.1))
      (.object (spelled (before ++ (key, extra) :: after)) .closed false) := by
  rw [holdsRecord_object_iff] at holds ⊢
  obtain ⟨once, strays⟩ := holds
  rw [List.forall_mem_append] at strays ⊢
  refine ⟨fun name among => ?_, strays.1, List.forall_mem_cons.mpr ⟨fun _ => sound, strays.2⟩⟩
  rw [count_insert (ne_of_mem_of_not_mem among unknown)]
  exact once name among

theorem holdsRecord_member {part : Document} (changed : Document)
    (known : name ∈ shapes.map (·.1))
    (holds : HoldsRecord (shapes.map (·.1))
      (.object (spelled (before ++ (name, part) :: after)) .closed false)) :
    HoldsRecord (shapes.map (·.1))
      (.object (spelled (before ++ (name, changed) :: after)) .closed false) := by
  rw [holdsRecord_object_iff] at holds ⊢
  obtain ⟨once, strays⟩ := holds
  rw [List.forall_mem_append, List.forall_mem_cons] at strays ⊢
  rw [map_fst_exchange part changed]
  exact ⟨once, strays.1, fun stranger => absurd known stranger, strays.2.2⟩

/-- A record is still one with a member that it does not ask for, and with wider parts. -/
theorem holdsRecord_of_widened (distinct : (shapes.map (·.1)).Nodup)
    (widened : Widened key Held (.record shapes) depth document wider)
    (holds : HoldsRecord (shapes.map (·.1)) document) :
    HoldsRecord (shapes.map (·.1)) wider ∧
      PartsWidened key shapes (part? (shapes.map (·.1)) document)
        (part? (shapes.map (·.1)) wider) := by
  cases widened with
  | here reads unknown fresh extra =>
      cases reads
      obtain ⟨extra, rfl⟩ := extra
      refine ⟨holdsRecord_here unknown (skip?_toDocument extra) holds, fun field among => .inl ?_⟩
      have apart : field.1 ≠ key := fun same => unknown (same ▸ List.mem_map_of_mem among)
      rw [part?_object, part?_object]
      exact (lookup_insert apart _).symm
  | @member _ inner _ name part changed before after _ reads asked last widened =>
      cases reads
      have known := mem_of_lookup asked
      have wide := holdsRecord_member changed (List.mem_map_of_mem known) holds
      refine ⟨wide, fun field among => ?_⟩
      rw [part?_object, part?_object]
      by_cases same : field.1 = name
      · -- A record has no second member of the name, so it is this one that is read.
        cases List.inj_on_of_nodup_map distinct among known same
        have once := (holdsRecord_object_iff.mp holds).1 name (List.mem_map_of_mem known)
        have onceWide := (holdsRecord_object_iff.mp wide).1 name (List.mem_map_of_mem known)
        exact .inr ⟨_, part, changed, lookup_of_count_le_one once List.mem_append_cons_self,
          lookup_of_count_le_one onceWide List.mem_append_cons_self, widened⟩
      · exact .inl ((lookup_insert same part).trans (lookup_insert same changed).symm)
  | @place _ inner _ name part changed before after _ reads asked widened =>
      cases reads
      have known := List.mem_of_getElem? asked
      refine ⟨?_, fun field among => ?_⟩
      · generalize same : Document.list (before ++ part :: after) .closed false = document at holds
        cases holds with
        | object => cases same
        | list few =>
            cases same
            exact .list (by simpa using few)
      · have found := List.getElem?_idxOf (List.mem_map_of_mem (f := (·.1)) among)
        -- The items stand in the order of the fields, so one field reads the wider item.
        by_cases here : (shapes.map (·.1)).idxOf field.1 = before.length
        · rw [here, List.getElem?_map, asked] at found
          cases List.inj_on_of_nodup_map distinct among known (Option.some.inj found).symm
          refine .inr ⟨_, part, changed, ?_, ?_, widened⟩
          · rw [part?_list, here, getElem?_middle]
          · rw [part?_list, here, getElem?_middle]
        · exact .inl (getElem?_exchange here part changed)

theorem Overlooks.decoder {fields : Fields σ α} (overlooks : fields.Overlooks shapes)
    (distinct : (shapes.map (·.1)).Nodup) (owner : Owner) :
    (fields.decoder owner).Overlooks (.record shapes) := by
  intro key depth document wider widened medium result accepted
  obtain ⟨made, reads, kept⟩ := overlooks.reads medium
  rw [reads.decoder_eq_ok_iff (overlooks.names_eq ▸ distinct), overlooks.names_eq] at accepted ⊢
  obtain ⟨holds, read⟩ := accepted
  obtain ⟨wide, parts⟩ := holdsRecord_of_widened distinct widened holds
  exact ⟨wide, kept key _ _ result parts read⟩

/-- Fields make the same of members that differ under other names. -/
theorem Reads.fromMembers_of_same {medium : Medium} {fields : Fields σ α}
    {made : (String → Option Document) → α → Prop} (reads : fields.Reads medium made)
    {entries wide : List (String × Document)} {record : α}
    (same : ∀ name ∈ fields.names, (wide.map (·.1)).count name = (entries.map (·.1)).count name ∧
      wide.lookup name = entries.lookup name)
    (read : fields.fromMembers medium (.whole entries) = .ok record) :
    fields.fromMembers medium (.whole wide) = .ok record := by
  obtain ⟨once, holds⟩ := (reads.ofMembers ..).mp read
  refine (reads.ofMembers ..).mpr ⟨fun name among => (same name among).1 ▸ once name among, ?_⟩
  rwa [reads.local_parts (wide.lookup ·) (entries.lookup ·) fun name among => (same name among).2]

end Fields

/-!
## The rest of an object, which is buffered
-/

section Rest

variable {keep : String → Bool}

theorem filter_middle (kept : keep name = true) (document : Document) :
    ((before ++ (name, document) :: after).filter fun entry => keep entry.1) =
      (before.filter fun entry => keep entry.1) ++
        (name, document) :: after.filter fun entry => keep entry.1 := by
  rw [List.filter_append, List.filter_cons, if_pos kept]

theorem LastOf.filter {entries : List (String × Document)} {document : Document}
    (last : LastOf entries name document) (keep : String → Bool) (kept : keep name = true) :
    LastOf (entries.filter fun entry => keep entry.1) name document := by
  obtain ⟨front, back, rfl, fresh⟩ := last
  rw [filter_middle kept]
  refine ⟨_, _, rfl, fun among => fresh ?_⟩
  exact (List.filter_sublist.map _).subset among

/-- What is buffered of the second object is what is buffered of the first one, widened, if it is
read by the fields. -/
def RestWidened (key : String) (keep : String → Bool) (depth : Nat)
    (fields : List (String × Shape)) (entries wide : List (String × Document)) : Prop :=
  ∀ others, (entries.filter fun entry => keep entry.1) = heldEntries others →
    ∃ others', (wide.filter fun entry => keep entry.1) = heldEntries others' ∧
      ∀ shape, ReadByName shape (heldEntries others) fields →
        Widened key Held shape depth (Json.object others).toDocument
          (Json.object others').toDocument

theorem restWidened_here {fields : List (String × Shape)} {extra : Document}
    (kept : keep key = true) (fresh : key ∉ (before ++ after).map (·.1))
    (unknown : key ∉ fields.map (·.1)) (value : Held (depth + 1) extra) :
    RestWidened key keep depth fields (before ++ after) (before ++ (key, extra) :: after) := by
  intro others held
  obtain ⟨value, rfl⟩ := value
  rw [List.filter_append] at held
  obtain ⟨front, back, rfl, sameFront, sameBack⟩ := heldEntries_eq_append_iff.mp held.symm
  refine ⟨front ++ (key, value) :: back, ?_, fun shape reads => ?_⟩
  · rw [filter_middle kept, heldEntries_split, sameFront, sameBack]
  · rw [heldEntries_append] at reads
    rw [toDocument_object, toDocument_object, heldEntries_append, heldEntries_split]
    refine .here reads unknown (fun among => fresh ?_) ⟨value, rfl⟩
    rw [sameFront, sameBack, ← List.filter_append] at among
    exact (List.filter_sublist.map _).subset among

theorem restWidened_member {fields : List (String × Shape)} {inner : Shape}
    {part changed : Document} (kept : keep name = true) (last : name ∉ after.map (·.1))
    (asked : fields.lookup name = some inner)
    (widened : Widened key Held inner (depth + 1) part changed) :
    RestWidened key keep depth fields (before ++ (name, part) :: after)
      (before ++ (name, changed) :: after) := by
  intro others held
  rw [filter_middle kept] at held
  obtain ⟨front, value, back, rfl, sameFront, rfl, sameBack⟩ :=
    heldEntries_eq_split_iff.mp held.symm
  obtain ⟨other, rfl⟩ := widened.exists_value
  refine ⟨front ++ (name, other) :: back, ?_, fun shape reads => ?_⟩
  · rw [filter_middle kept, heldEntries_split, sameFront, sameBack]
  · rw [heldEntries_split] at reads
    rw [toDocument_object, toDocument_object, heldEntries_split, heldEntries_split]
    refine .member reads asked (fun among => last ?_) widened
    rw [sameBack] at among
    exact (List.filter_sublist.map _).subset among

theorem LastOf.eq_of_mem {entries : List (String × Document)} {first second : Document}
    (last : LastOf entries name first) (once : (entries.map (·.1)).count name ≤ 1)
    (among : (name, second) ∈ entries) : second = first := by
  obtain ⟨before, after, rfl, _⟩ := last
  have found := lookup_of_count_le_one once among
  rw [lookup_of_count_le_one once List.mem_append_cons_self] at found
  exact (Option.some.inj found).symm

end Rest

/-!
## Unions
-/

namespace Decoder

/-- The variants have the names of the shapes, and each overlooks widening by its own. -/
def VariantsOverlook (variants : List (String × Decoder α))
    (shapes : List (String × List (String × Shape))) : Prop :=
  List.Forall₂ (fun variant shape => variant.1 = shape.1 ∧ variant.2.Overlooks (.record shape.2))
    variants shapes

variable {variants : List (String × Decoder α)} {shapes : List (String × List (String × Shape))}
  {medium : Medium} {result : α}

theorem named?_cons {γ : Type} (name : String) (entry : String × γ) (rest : List (String × γ)) :
    named? name (entry :: rest) = if entry.1 = name then some entry.2 else named? name rest := by
  unfold named?
  rw [List.find?_cons]
  by_cases same : entry.1 = name <;> simp [same]

theorem overlooks_of_named {name : String} {variant : Decoder α} {fields : List (String × Shape)}
    (overlook : VariantsOverlook variants shapes) (chosen : named? name variants = some variant)
    (selected : named? name shapes = some fields) : variant.Overlooks (.record fields) := by
  induction overlook with
  | nil => cases chosen
  | cons first _ ih =>
      obtain ⟨same, overlooks⟩ := first
      rw [named?_cons] at chosen selected
      rw [← same] at selected
      split at chosen
      · rename_i own
        rw [if_pos own] at selected
        cases chosen
        cases selected
        exact overlooks
      · rename_i foreign
        rw [if_neg foreign] at selected
        exact ih chosen selected

/-- The variant that a tag chooses reads the fields that the tag selects. -/
theorem overlooks_of_selects {tagged : Document} {variant : Decoder α}
    {fields : List (String × Shape)} (overlook : VariantsOverlook variants shapes)
    (chosen : tag variants medium tagged = .ok variant) (selects : Selects shapes tagged fields) :
    variant.Overlooks (.record fields) := by
  cases selects with
  | @name name _ selected =>
      change namedOrUnknown variants name = _ at chosen
      unfold namedOrUnknown at chosen
      cases named : named? name variants with
      | none => rw [named] at chosen; cases chosen
      | some found =>
          rw [named] at chosen
          cases chosen
          exact overlooks_of_named overlook named selected
  | @number place shape within selected =>
      cases medium with
      | text | value => cases chosen
      | buffer =>
          change (if place < 0 then _ else _) = _ at chosen
          rw [if_neg (Int.not_lt.mpr within)] at chosen
          cases found : variants[place.toNat]? with
          | none => rw [found] at chosen; cases chosen
          | some entry =>
              rw [found] at chosen
              cases chosen
              obtain ⟨bound, rfl⟩ := List.getElem?_eq_some_iff.mp found
              obtain ⟨otherBound, rfl⟩ := List.getElem?_eq_some_iff.mp selected
              exact (overlook.get bound otherBound).2

/-- An object is accepted by a union just if one member is the tag of a variant that accepts the
values of the others. -/
theorem union_spelled_eq_ok_iff {name : String} {entries : List (String × Document)} :
    union name variants medium (.object (spelled entries) .closed false) = .ok result ↔
      ∃ document others variant, (tagName, document) ∈ entries ∧
        (entries.map (·.1)).count tagName ≤ 1 ∧
        (entries.filter fun entry => entry.1 != tagName) = heldEntries others ∧
        tag variants medium document = .ok variant ∧
        variant .buffer (Json.object others).toDocument = .ok result := by
  have kept : ∀ {others : List (String × Document)}, tagName ∉ others.map (·.1) →
      (others.filter fun entry => entry.1 != tagName) = others := fun absent =>
    List.filter_eq_self.mpr fun entry among =>
      bne_iff_ne.mpr fun same => absent (List.mem_map.mpr ⟨entry, among, same⟩)
  rw [union_object_eq_ok_iff]
  constructor
  · intro holds
    obtain ⟨before, document, after, variant, same, _, _, apart, chosen, accepted⟩ := holds
    cases spelled_injective same
    rw [← map_fst_heldEntries, heldEntries_append, List.map_append, List.mem_append, not_or]
      at apart
    refine ⟨document, before ++ after, variant, List.mem_append_cons_self, ?_, ?_, chosen, accepted⟩
    · apply Nat.le_of_eq
      rw [List.map_append, List.map_cons, List.count_append, List.count_cons_self,
        List.count_eq_zero_of_not_mem apart.1, List.count_eq_zero_of_not_mem apart.2]
    · rw [List.filter_append, List.filter_cons_of_neg (by simp), kept apart.1, kept apart.2,
        heldEntries_append]
  · intro holds
    obtain ⟨document, others, variant, among, once, held, chosen, accepted⟩ := holds
    obtain ⟨before, after, rfl⟩ := List.append_of_mem among
    rw [List.map_append, List.map_cons, List.count_append, List.count_cons_self] at once
    have first : tagName ∉ before.map (·.1) := List.count_eq_zero.mp (by omega)
    have last : tagName ∉ after.map (·.1) := List.count_eq_zero.mp (by omega)
    rw [List.filter_append, List.filter_cons_of_neg (by simp), kept first, kept last] at held
    obtain ⟨before, after, rfl, rfl, rfl⟩ := heldEntries_eq_append_iff.mp held.symm
    rw [map_fst_heldEntries] at first last
    refine ⟨before, document, after, variant, rfl, rfl, rfl, ?_, chosen, accepted⟩
    rw [List.map_append, List.mem_append, not_or]
    exact ⟨first, last⟩

variable {entries wide : List (String × Document)} {tagged : Document}
  {fields : List (String × Shape)}

/-- A union accepts an object in which the tag stays as it is and the rest is widened. -/
theorem union_ok_of_widened {name : String} (overlook : VariantsOverlook variants shapes)
    (last : LastOf entries tagName tagged) (selects : Selects shapes tagged fields)
    (stays : ∀ document, (tagName, document) ∈ entries → (tagName, document) ∈ wide)
    (same : (wide.map (·.1)).count tagName = (entries.map (·.1)).count tagName)
    (rest : RestWidened key (· != tagName) depth fields entries wide)
    (accepted : union name variants medium (.object (spelled entries) .closed false) =
      .ok result) :
    union name variants medium (.object (spelled wide) .closed false) = .ok result := by
  obtain ⟨document, others, variant, among, once, held, chosen, read⟩ :=
    union_spelled_eq_ok_iff.mp accepted
  cases last.eq_of_mem once among
  obtain ⟨others, wideHeld, widened⟩ := rest others held
  exact union_spelled_eq_ok_iff.mpr ⟨_, others, variant, stays _ among, same ▸ once, wideHeld,
    chosen, overlooks_of_selects overlook chosen selects (widened _ .record) .buffer result read⟩

/-- A union passes what is wider on to the variant, which overlooks it. -/
theorem union_overlooks (name : String) (overlook : VariantsOverlook variants shapes) :
    (union name variants).Overlooks (.union shapes) := by
  intro key depth document wider widened medium result accepted
  cases widened with
  | here reads unknown fresh extra =>
      cases reads with
      | union last selects =>
          rw [List.map_cons, List.mem_cons, not_or] at unknown
          obtain ⟨apart, unknown⟩ := unknown
          exact union_ok_of_widened overlook last selects
            (fun _ among => ((List.sublist_cons_self _ _).append_left _).subset among)
            (count_insert (Ne.symm apart) _)
            (restWidened_here (bne_iff_ne.mpr apart) fresh unknown extra) accepted
  | member reads asked last widened =>
      cases reads with
      | union tagged selects =>
          rw [lookup_cons_eq_ite] at asked
          split at asked
          · cases asked
            exact absurd widened Widened.not_plain
          · rename_i apart
            exact union_ok_of_widened overlook tagged selects
              (fun _ among => mem_exchange among fun same => apart (Prod.mk.inj same).1.symm)
              (by rw [map_fst_exchange])
              (restWidened_member (bne_iff_ne.mpr apart) last asked widened) accepted
  | @place _ inner _ name part changed before after _ reads asked widened =>
      cases before with
      | nil =>
          -- The first item is the tag, in which nothing is read by name.
          cases reads with
          | union selects =>
              cases asked
              exact absurd widened Widened.not_plain
      | cons tagged before =>
          cases reads with
          | @union _ _ _ fields selects =>
              obtain ⟨document, others, variant, same, _, _, chosen, read⟩ :=
                union_list_eq_ok_iff.mp accepted
              obtain ⟨rfl, rest⟩ := List.cons.inj same
              rw [itemDocuments_eq_map] at rest
              obtain ⟨front, value, back, rfl, rfl, rfl, rfl⟩ :=
                map_toDocument_eq_split_iff.mp rest.symm
              obtain ⟨other, rfl⟩ := widened.exists_value
              have wide : Widened key Held (.record fields) depth
                  (Json.list (front ++ value :: back)).toDocument
                  (Json.list (front ++ other :: back)).toDocument := by
                rw [toDocument_list, toDocument_list, List.map_append, List.map_append,
                  List.map_cons, List.map_cons]
                exact .place .record asked widened
              refine union_list_eq_ok_iff.mpr ⟨_, front ++ other :: back, variant, ?_, rfl, rfl,
                chosen, overlooks_of_selects overlook chosen selects wide .buffer result read⟩
              rw [itemDocuments_eq_map, List.map_append, List.map_cons]
              rfl

/-!
## Objects that hold the members of another value
-/

variable {own : List String} {fields : Fields σ (α → β)} {inner : Decoder α}
  {entries wide : List (String × Document)} {tagged : Document}
  {tagFields : List (String × Shape)} {result : β}

/-- An object goes on to be accepted where its own members stay as they are and the rest is
widened by the shape of the union. -/
theorem flattened_ok_of_widened {name : String}
    (overlooks : fields.Overlooks (Shape.plainFields own)) (untagged : tagName ∉ own)
    (innerOverlooks : inner.Overlooks (.union shapes)) (last : LastOf entries tagName tagged)
    (selects : Selects shapes tagged tagFields)
    (same : ∀ name ∈ own, (wide.map (·.1)).count name = (entries.map (·.1)).count name ∧
      wide.lookup name = entries.lookup name)
    (rest : RestWidened key (!own.contains ·) depth ((tagName, .plain) :: tagFields) entries wide)
    (accepted : flattened name fields inner medium (.object (spelled entries) .closed false) =
      .ok result) :
    flattened name fields inner medium (.object (spelled wide) .closed false) = .ok result := by
  have names : fields.names = own := overlooks.names_eq.trans (Shape.map_fst_plainFields own)
  obtain ⟨made, reads, -⟩ := overlooks.reads medium
  obtain ⟨_, others, combine, value, split, taken, held, read, rfl⟩ :=
    flattened_eq_ok_iff.mp accepted
  cases spelled_injective (Document.object.inj split).1
  rw [names] at held
  obtain ⟨others', wideHeld, widened⟩ := rest others held
  have tagged := last.filter (!own.contains ·) (by simpa using untagged)
  rw [held] at tagged
  refine flattened_eq_ok_iff.mpr ⟨wide, others', combine, value, rfl,
    reads.fromMembers_of_same (names ▸ same) taken, names ▸ wideHeld, ?_, rfl⟩
  exact innerOverlooks (widened _ (.union tagged selects)) .buffer value read

/-- Own fields of plain values take their members as they are, and the other value overlooks
what is wider in the rest. -/
theorem flattened_overlooks (name : String) (overlooks : fields.Overlooks (Shape.plainFields own))
    (untagged : tagName ∉ own) (innerOverlooks : inner.Overlooks (.union shapes)) :
    (flattened name fields inner).Overlooks (.flattened own shapes) := by
  intro key depth document wider widened medium result accepted
  cases widened with
  | here readBy unknown fresh extra =>
      cases readBy with
      | flattened last selects =>
          rw [List.map_append, List.mem_append, not_or, Shape.map_fst_plainFields] at unknown
          obtain ⟨foreign, unknown⟩ := unknown
          refine flattened_ok_of_widened overlooks untagged innerOverlooks last selects
            (fun name among => ?_)
            (restWidened_here (by simpa using foreign) fresh unknown extra) accepted
          have apart : name ≠ key := ne_of_mem_of_not_mem among foreign
          exact ⟨count_insert apart _, lookup_insert apart _⟩
  | @member _ _ _ name _ _ _ _ _ readBy asked last widened =>
      cases readBy with
      | flattened tagged selects =>
          rw [List.lookup_append] at asked
          cases plain : (Shape.plainFields own).lookup name with
          | some shape =>
              rw [plain] at asked
              cases asked
              cases Shape.lookup_plainFields plain
              exact absurd widened Widened.not_plain
          | none =>
              rw [plain, Option.none_or] at asked
              have foreign := Shape.notMem_of_lookup_plainFields plain
              refine flattened_ok_of_widened overlooks untagged innerOverlooks tagged selects
                (fun other among => ?_)
                (restWidened_member (by simpa using foreign) last asked widened) accepted
              have apart : other ≠ name := ne_of_mem_of_not_mem among foreign
              exact ⟨by rw [map_fst_exchange],
                (lookup_insert apart _).trans (lookup_insert apart _).symm⟩
  | place reads => cases reads

end Decoder

end BatchAuction.Wire
