import BatchAuction.Proofs.Json.Reordering
import BatchAuction.Proofs.Wire.Values
import BatchAuction.Wire.Scalar

/-!
# What decoders make of values

Over a value held in memory only the result of a decoder is of interest: there is no
damage, and the path and the cause of a refusal are left out. Each way of building a
decoder then has one equation, by which an object is looked up by key. The members of a
record and of a union are told by their keys alone, so the equations ask that no key is
repeated.
-/

set_option autoImplicit false

namespace BatchAuction.Wire

open Json

variable {α β σ : Type} {medium : Medium} {value : Json} {items : List Json}
  {members : List (String × Json)}

@[simp] theorem toOption_ok {ε : Type} (value : α) :
    (.ok value : Except ε α).toOption = some value := rfl

theorem toOption_eq_some_iff {ε : Type} {read : Except ε α} {result : α} :
    read.toOption = some result ↔ read = .ok result := by
  cases read <;> simp [Except.toOption]

@[simp] theorem toOption_map (read : Except Error α) (change : α → β) :
    (read.map change).toOption = read.toOption.map change := by
  cases read <;> rfl

@[simp] theorem toOption_mapError {ε δ : Type} (read : Except ε α) (change : ε → δ) :
    (read.mapError change).toOption = read.toOption := by
  cases read <;> rfl

@[simp] theorem toOption_bind (read : Except Error α) (next : α → Except Error β) :
    (read >>= next).toOption = read.toOption.bind fun value => (next value).toOption := by
  cases read <;> rfl

@[simp] theorem toOption_mismatch (expected : Expected) (document : Document) :
    (mismatch expected document : Except Error α).toOption = none := by
  unfold mismatch
  split <;> rfl

theorem mapM_eq_some_iff {f : α → Option β} {items : List α} {results : List β} :
    items.mapM f = some results ↔
      List.Forall₂ (fun item result => f item = some result) items results := by
  induction items generalizing results with
  | nil => simp [eq_comm]
  | cons item rest ih =>
      rw [List.mapM_cons]
      constructor
      · intro made
        obtain ⟨result, resultMade, made⟩ := Option.bind_eq_some_iff.mp made
        obtain ⟨others, othersMade, made⟩ := Option.bind_eq_some_iff.mp made
        cases made
        exact .cons resultMade (ih.mp othersMade)
      · intro each
        cases each with
        | cons resultMade othersMade =>
            rw [resultMade, ih.mpr othersMade]
            rfl

theorem exists_of_mem_mapM {f : α → Option β} {items : List α} {results : List β}
    (made : items.mapM f = some results) {result : β} (among : result ∈ results) :
    ∃ item ∈ items, f item = some result :=
  exists_of_mem_forall₂ (mapM_eq_some_iff.mp made) among

theorem mapM_perm {f : α → Option β} {items others : List α} {results : List β}
    (order : items.Perm others) (made : items.mapM f = some results) :
    ∃ otherResults, others.mapM f = some otherResults ∧ results.Perm otherResults := by
  obtain ⟨otherResults, otherMade, otherOrder⟩ :=
    List.perm_comp_forall₂ order.symm (mapM_eq_some_iff.mp made)
  exact ⟨otherResults, mapM_eq_some_iff.mpr otherMade, otherOrder.symm⟩

namespace Decoder

/-- What a decoder makes of a value, if it accepts it. -/
def outcome? (decoder : Decoder α) (medium : Medium) (value : Json) : Option α :=
  (decoder medium value.toDocument).toOption

theorem outcome?_eq_some_iff {decoder : Decoder α} {result : α} :
    decoder.outcome? medium value = some result ↔
      decoder medium value.toDocument = .ok result :=
  toOption_eq_some_iff

theorem toOption_decodeBuffer (decoder : Decoder α) (value : Json) :
    (decodeBuffer decoder value).toOption = decoder.outcome? .buffer value :=
  toOption_mapError ..

/-!
## Plain values
-/

@[simp] theorem outcome?_map (decoder : Decoder α) (change : α → β) :
    (decoder.map change).outcome? medium value = (decoder.outcome? medium value).map change :=
  toOption_map ..

@[simp] theorem outcome?_refine (decoder : Decoder α) (check : α → Except Cause β) :
    (decoder.refine check).outcome? medium value =
      (decoder.outcome? medium value).bind fun found => (check found).toOption := by
  unfold outcome? refine
  simp only [toOption_bind, toOption_mapError]

/-- Whether a decoder only accepts values without parts, in whatever form they reach it. -/
structure Plain (decoder : Decoder α) : Prop where
  medium_irrelevant : ∀ first second value,
    decoder.outcome? first value = decoder.outcome? second value
  refuses_list : ∀ medium items, decoder.outcome? medium (.list items) = none
  refuses_object : ∀ medium members, decoder.outcome? medium (.object members) = none

theorem textAs_plain (expected : Expected) : (textAs expected).Plain where
  medium_irrelevant _ _ _ := rfl
  refuses_list _ _ := rfl
  refuses_object _ _ := rfl

theorem boolean_plain : boolean.Plain where
  medium_irrelevant _ _ _ := rfl
  refuses_list _ _ := rfl
  refuses_object _ _ := rfl

theorem integer_plain (least greatest : Int) (expected : Expected) :
    (integer least greatest expected).Plain where
  medium_irrelevant _ _ _ := rfl
  refuses_list _ _ := rfl
  refuses_object _ _ := rfl

theorem real_plain : real.Plain where
  medium_irrelevant _ _ _ := rfl
  refuses_list _ _ := rfl
  refuses_object _ _ := rfl

theorem readScaled_plain : Codec.readScaled.Plain where
  medium_irrelevant _ _ _ := rfl
  refuses_list _ _ := rfl
  refuses_object _ _ := rfl

theorem Plain.map {decoder : Decoder α} (plain : decoder.Plain) (change : α → β) :
    (decoder.map change).Plain where
  medium_irrelevant first second value := by
    rw [outcome?_map, outcome?_map, plain.medium_irrelevant first second]
  refuses_list medium items := by rw [outcome?_map, plain.refuses_list, Option.map_none]
  refuses_object medium members := by rw [outcome?_map, plain.refuses_object, Option.map_none]

theorem Plain.refine {decoder : Decoder α} (plain : decoder.Plain)
    (check : α → Except Cause β) : (decoder.refine check).Plain where
  medium_irrelevant first second value := by
    rw [outcome?_refine, outcome?_refine, plain.medium_irrelevant first second]
  refuses_list medium items := by rw [outcome?_refine, plain.refuses_list, Option.bind_none]
  refuses_object medium members := by
    rw [outcome?_refine, plain.refuses_object, Option.bind_none]

/-!
## Options and lists
-/

theorem outcome?_option (decoder : Decoder α) (value : Json) :
    decoder.option.outcome? medium value =
      match value with
      | .null => some none
      | value => (decoder.outcome? medium value).map some := by
  cases value <;> first | rfl | exact toOption_map ..

theorem toOption_itemsFrom (decoder : Decoder α) (index : Nat) (items : List Json) :
    (itemsFrom decoder medium .closed index (itemDocuments items)).toOption =
      items.mapM (decoder.outcome? medium) := by
  induction items generalizing index with
  | nil => rfl
  | cons item rest ih =>
      rw [itemDocuments, itemsFrom, List.mapM_cons]
      simp only [toOption_bind, toOption_mapError, ih]
      rfl

theorem outcome?_list (decoder : Decoder α) (items : List Json) :
    decoder.list.outcome? medium (.list items) = items.mapM (decoder.outcome? medium) :=
  toOption_itemsFrom decoder 0 items

end Decoder

/-!
## Records
-/

/-- What is made of both of two outcomes. -/
theorem toOption_both {γ : Type} (combine : α → β → γ) (first : PlacedResult α)
    (second : PlacedResult β) :
    (PlacedResult.both combine first second).toOption =
      first.toOption.bind fun x => second.toOption.map (combine x) := by
  cases first <;> cases second <;> rfl

namespace Fields

/-- What the fields make of the members of an object, if they accept them. -/
def ofMembers? (fields : Fields σ α) (medium : Medium) (members : List (String × Json)) :
    Option α :=
  (fields.fromMembers medium (.held members)).toOption

@[simp] theorem ofMembers?_seq (first : Fields σ (α → β)) (second : Fields σ α) :
    (first <*> second).ofMembers? medium members =
      (first.ofMembers? medium members).bind fun f =>
        (second.ofMembers? medium members).map f :=
  toOption_both ..

private theorem occurrences_of_notMem {name : String} (place : Nat)
    (absent : name ∉ members.map (·.1)) :
    occurrences name place (members.map fun member => (member.1, member.2.toDocument)) = [] := by
  induction members generalizing place with
  | nil => rfl
  | cons head rest ih =>
      rw [List.map_cons, List.mem_cons, not_or] at absent
      rw [List.map_cons, occurrences, if_neg (Ne.symm absent.1), ih (place + 1) absent.2]

/-- A key that is not repeated occurs at most once, with the member it leads to. -/
private theorem occurrences_held (name : String) (place : Nat)
    (distinct : (members.map (·.1)).Nodup) :
    (occurrences name place (members.map fun member => (member.1, member.2.toDocument))).map
        (·.2) =
      (members.lookup name).toList.map toDocument := by
  induction members generalizing place with
  | nil => rfl
  | cons head rest ih =>
      obtain ⟨key, value⟩ := head
      obtain ⟨fresh, restDistinct⟩ := List.nodup_cons.mp distinct
      rw [List.map_cons, occurrences, List.lookup_cons]
      by_cases same : key = name
      · subst same
        rw [if_pos rfl, occurrences_of_notMem (place + 1) fresh, beq_self_eq_true]
        rfl
      · rw [if_neg same, beq_eq_false_iff_ne.mpr (Ne.symm same)]
        exact ih (place + 1) restDistinct

/-- A field makes of an object what it makes of the member of its name. -/
theorem ofMembers?_member (name : String) (decode : Decoder α) (absent : Option α)
    (write : σ → List (String × Json)) (distinct : (members.map (·.1)).Nodup) :
    (member name decode absent write).ofMembers? medium members =
      match members.lookup name with
      | some value => decode.outcome? medium value
      | none => absent := by
  have found := occurrences_held name 0 distinct
  unfold ofMembers? member fromMember
  dsimp only
  change (occurrences name 0 (Members.held members).entries).map (·.2) = _ at found
  cases held : members.lookup name with
  | none =>
      rw [held] at found
      rw [List.map_eq_nil_iff.mp found]
      cases absent <;> rfl
  | some value =>
      rw [held] at found
      obtain ⟨⟨place, document⟩, others, occurs, rfl, rest⟩ := List.map_eq_cons_iff.mp found
      rw [occurs, List.map_eq_nil_iff.mp rest]
      dsimp only
      unfold Decoder.outcome?
      cases decode medium value.toDocument <;> rfl

/-- Passing over the members of other names meets no damage. -/
theorem strayError?_held (names : List String) (place : Nat) (members : List (String × Json)) :
    strayError? names place (Members.held members).entries = none := by
  unfold Members.held
  induction members generalizing place with
  | nil => rfl
  | cons head rest ih =>
      simp only [List.map_cons, strayError?, skip?_toDocument] at ih ⊢
      split <;> exact ih (place + 1)

theorem outcome?_decoder_object (fields : Fields σ α) (owner : Owner)
    (members : List (String × Json)) :
    (fields.decoder owner).outcome? medium (.object members) =
      fields.ofMembers? medium members := by
  have reads : fields.decoder owner medium (Json.object members).toDocument =
      fields.readObject medium (Members.of .closed (memberDocuments members)) := rfl
  unfold Decoder.outcome? ofMembers?
  rw [reads, Members.of_memberDocuments, readObject, strayError?_held]
  change (Except.mapError (·.error) (fields.fromMembers medium (.held members))).toOption = _
  cases fields.fromMembers medium (.held members) <;> rfl

/-- What the fields make of list items, with the items they leave. -/
def TakesItems (fields : Fields σ α) (medium : Medium) (items : List Json)
    (result : Option α) : Prop :=
  ∀ missing index, (fields.fromItems medium missing .closed index
    (itemDocuments items)).toOption = result.map (·, itemDocuments (items.drop fields.names.length))

theorem takesItems_pure (value : α) (items : List Json) :
    (pure value : Fields σ α).TakesItems medium items (some value) :=
  fun _ _ => rfl

theorem TakesItems.seq {first : Fields σ (α → β)} {second : Fields σ α} {f : Option (α → β)}
    {x : Option α} (takesFirst : first.TakesItems medium items f)
    (takesSecond : second.TakesItems medium (items.drop first.names.length) x) :
    (first <*> second).TakesItems medium items (f.bind fun f => x.map f) := by
  intro missing index
  have names : (first <*> second).names.length = first.names.length + second.names.length :=
    List.length_append
  have reads : (first <*> second).fromItems medium missing .closed index (itemDocuments items) =
      (do
        let read ← first.fromItems medium missing .closed index (itemDocuments items)
        let next ← second.fromItems medium missing .closed (index + first.names.length) read.2
        return (read.1 next.1, next.2)) := rfl
  rw [reads, toOption_bind, takesFirst, names, ← List.drop_drop]
  cases f with
  | none => rfl
  | some f =>
      simp only [Option.map_some, Option.bind_some, toOption_bind, takesSecond _ _]
      cases x <;> rfl

theorem takesItems_member (name : String) (decode : Decoder α) (absent : Option α)
    (write : σ → List (String × Json)) (medium : Medium) (items : List Json) :
    (member name decode absent write).TakesItems medium items
      (match items with
      | item :: _ => decode.outcome? medium item
      | [] => absent) := by
  intro missing index
  unfold member
  cases items with
  | nil => cases absent <;> rfl
  | cons item rest =>
      unfold Decoder.outcome?
      dsimp only [itemDocuments, fromItem]
      cases decode medium item.toDocument <;> rfl

theorem surplus?_eq_none_iff (medium : Medium) (wanted length : Nat) (rest : List Json) :
    surplus? medium wanted length .closed (itemDocuments rest) = none ↔ rest = [] := by
  cases rest with
  | nil => exact iff_of_true rfl rfl
  | cons item rest => cases item <;> exact iff_of_false nofun nofun

theorem TakesItems.outcome?_decoder_list {fields : Fields σ α} {result : Option α}
    (takes : fields.TakesItems medium items result) (owner : Owner) :
    (fields.decoder owner).outcome? medium (.list items) =
      if items.length ≤ fields.names.length then result else none := by
  have reads : (fields.decoder owner).outcome? medium (.list items) =
      (fields.readList owner medium .closed (itemDocuments items)).toOption := rfl
  rw [reads, readList]
  dsimp only
  rw [toOption_bind, takes]
  cases result with
  | none => simp
  | some value =>
      simp only [Option.map_some, Option.bind_some]
      have surplus := surplus?_eq_none_iff medium fields.names.length
        (itemDocuments items).length (items.drop fields.names.length)
      rw [List.drop_eq_nil_iff] at surplus
      split
      · rename_i none_eq
        rw [if_pos (surplus.mp none_eq)]
        rfl
      · rename_i cause some_eq
        rw [if_neg fun few => nomatch some_eq.symm.trans (surplus.mpr few)]
        rfl

end Fields

end BatchAuction.Wire
