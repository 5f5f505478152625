import BatchAuction.Proofs.Wire.Alternative
import BatchAuction.Proofs.Wire.Table

/-!
# The order of members does not matter to a decoder

A decoder is stable if it makes the same of a value and of each of its reorderings, and
if it does so whether the value is being read or is held in memory. Every way of building
decoders keeps this. A table that lets a later entry replace an earlier one is stable
only on objects whose keys are different addresses, so stability is relative to the
values it is asked of.
-/

set_option autoImplicit false

namespace BatchAuction.Wire

open Json

variable {α β σ : Type}

/-- Both forms are buffers or neither is. Only in a buffer may a tag be a number. -/
def Medium.Alike (first second : Medium) : Prop := first = .buffer ↔ second = .buffer

theorem Medium.Alike.refl (medium : Medium) : medium.Alike medium := Iff.rfl

/-- A decoder that makes the same of a value that suits and of its reorderings. -/
def Decoder.StableOn (decoder : Decoder α) (suits : Json → Prop) : Prop :=
  ∀ ⦃first second : Medium⦄, first.Alike second → ∀ ⦃value other : Json⦄, value.DistinctKeys →
    suits value → value.Reordered other →
    decoder.outcome? first value = decoder.outcome? second other

/-- A decoder that makes the same of a value and of its reorderings. -/
abbrev Decoder.Stable (decoder : Decoder α) : Prop := decoder.StableOn fun _ => True

/-- Fields that make the same of the parts of a record and of their reorderings. -/
structure Fields.StableOn (fields : Fields σ α) (suits : String → Json → Prop) : Prop where
  ofMembers : ∀ {first second : Medium} {members others : List (String × Json)},
    first.Alike second → (Json.object members).DistinctKeys →
    (∀ name part, HasPart fields.names (.object members) name part → suits name part) →
    (Json.object members).Reordered (.object others) →
    fields.ofMembers? first members = fields.ofMembers? second others
  ofItems : ∀ {first second : Medium} {items others : List Json},
    first.Alike second → (Json.list items).DistinctKeys →
    (∀ name part, HasPart fields.names (.list items) name part → suits name part) →
    (Json.list items).Reordered (.list others) →
    ∃ result, fields.TakesItems first items result ∧ fields.TakesItems second others result

/-- Fields that make the same of the parts of any record and of their reorderings. -/
abbrev Fields.Stable (fields : Fields σ α) : Prop := fields.StableOn fun _ _ => True

namespace Decoder

variable {decoder : Decoder α} {suits : Json → Prop}

theorem StableOn.mono (stable : decoder.StableOn suits) {fewer : Json → Prop}
    (weaker : ∀ value, fewer value → suits value) : decoder.StableOn fewer :=
  fun _ _ alike _ _ distinct suited reordered =>
    stable alike distinct (weaker _ suited) reordered

theorem Stable.stableOn (stable : decoder.Stable) (suits : Json → Prop) :
    decoder.StableOn suits :=
  stable.mono fun _ _ => trivial

/-!
## Plain values, options and lists
-/

theorem Plain.stable (plain : decoder.Plain) : decoder.Stable := by
  intro first second _ value other _ _ reordered
  cases reordered with
  | list => rw [plain.refuses_list, plain.refuses_list]
  | object => rw [plain.refuses_object, plain.refuses_object]
  | _ => exact plain.medium_irrelevant first second _

theorem Stable.map (stable : decoder.Stable) (change : α → β) : (decoder.map change).Stable := by
  intro first second alike value other distinct suited reordered
  rw [outcome?_map, outcome?_map, stable alike distinct suited reordered]

theorem Stable.option (stable : decoder.Stable) : decoder.option.Stable := by
  intro first second alike value other distinct suited reordered
  have same := stable alike distinct suited reordered
  rw [outcome?_option, outcome?_option]
  cases reordered with
  | null => rfl
  | _ => exact congrArg (Option.map some) same

theorem StableOn.list (stable : decoder.StableOn suits) :
    decoder.list.StableOn (EachItem suits) := by
  intro first second alike value other distinct suited reordered
  cases reordered with
  | @list items others each =>
      rw [outcome?_list, outcome?_list]
      induction each with
      | nil => rfl
      | @cons item other rest others headReordered _ ih =>
          have head := stable alike (distinct.item List.mem_cons_self)
            (suited item List.mem_cons_self) headReordered
          have tail := ih distinct.tail fun later among => suited later (.tail _ among)
          rw [List.mapM_cons, List.mapM_cons, head, tail]
  | _ => rfl

theorem Stable.list (stable : decoder.Stable) : decoder.list.Stable :=
  (StableOn.list stable).mono fun value _ => by
    cases value <;> simp [EachItem]

/-!
## Enumerations and alternatives
-/

theorem constant_stable (value : α) : (constant value).Stable := by
  intro first second _ json other _ _ reordered
  cases reordered with
  | list each => cases each <;> rfl
  | _ => rfl

private theorem name?_eq_of_reordered {value other : Json} (reordered : value.Reordered other) :
    name? value = name? other := by
  cases reordered with
  | list => rfl
  | @object members placed others inside order =>
      have length := inside.length_eq
      match members, placed, inside with
      | [], [], .nil => rw [List.nil_perm.mp order]
      | [(key, value)], [(_, other)], .cons _ valueReordered .nil =>
          rw [← List.singleton_perm.mp order]
          cases valueReordered <;> rfl
      | first :: second :: rest, placed, _ =>
          have several : 2 ≤ placed.length := by simp [← length]
          rw [name?_object_of_two_le (by simp), name?_object_of_two_le (order.length_eq ▸ several)]
  | _ => rfl

theorem oneOf_stable (entries : List (String × α)) : (oneOf entries).Stable := by
  intro first second _ value other _ _ reordered
  rw [outcome?_oneOf, outcome?_oneOf, name?_eq_of_reordered reordered]

theorem tag_stable (entries : List (String × α)) : (tag entries).Stable := by
  intro first second alike value other _ _ reordered
  rw [outcome?_tag, outcome?_tag]
  cases reordered with
  | number number =>
      cases number with
      | integer index => simp only [show (first = .buffer) = (second = .buffer) from propext alike]
      | real => rfl
  | _ => rfl

theorem union_stable (name : String) {variants : List (String × Decoder α)}
    (each : ∀ variant ∈ variants, variant.2.Stable) : (union name variants).Stable := by
  intro first second alike value other distinct _ reordered
  cases reordered with
  | @object members _ others inside order =>
      have reordered := Reordered.object inside order
      have rest : (Json.object (withoutTag members)).Reordered (.object (withoutTag others)) :=
        reordered.filter (· != tagName)
      rw [outcome?_union_object name variants distinct.keys_nodup,
        outcome?_union_object name variants (reordered.keys_nodup distinct)]
      match held : members.lookup tagName, others.lookup tagName,
        reordered.lookup distinct tagName with
      | none, none, .none => rfl
      | some value, some other, .some valueReordered =>
          have same := tag_stable variants alike (distinct.lookup held) trivial valueReordered
          simp only [Option.bind_some, ← same]
          refine Option.bind_congr fun variant chosen => ?_
          obtain ⟨_, among⟩ := mem_of_outcome?_tag chosen
          exact each _ among (.refl .buffer) (distinct.sublist List.filter_sublist) trivial rest
  | list itemsReordered =>
      rw [outcome?_union_list, outcome?_union_list]
      cases itemsReordered with
      | nil => rfl
      | cons firstReordered restReordered =>
          have same := tag_stable variants alike (distinct.item List.mem_cons_self) trivial
            firstReordered
          -- The other items are buffered on both sides, whatever the first one came from.
          dsimp only
          rw [← same]
          refine Option.bind_congr fun variant chosen => ?_
          obtain ⟨_, among⟩ := mem_of_outcome?_tag chosen
          exact each _ among (.refl .buffer) distinct.tail trivial (.list restReordered)
  | _ => rfl

theorem either_stable {first second : Decoder α} (firstStable : first.Stable)
    (secondStable : second.Stable) : (either first second).Stable := by
  intro _ _ _ value other distinct suited reordered
  have buffered := Medium.Alike.refl .buffer
  rw [outcome?_either, outcome?_either, firstStable buffered distinct suited reordered,
    secondStable buffered distinct suited reordered]

theorem firstOf_stable (name : String) {alternatives : List (Decoder α)}
    (each : ∀ alternative ∈ alternatives, alternative.Stable) :
    (firstOf name alternatives).Stable := by
  intro _ _ _ value other distinct suited reordered
  rw [outcome?_firstOf, outcome?_firstOf]
  induction alternatives with
  | nil => rfl
  | cons head rest ih =>
      have same := each head List.mem_cons_self (.refl .buffer) distinct suited reordered
      rw [List.findSome?_cons, List.findSome?_cons, same,
        ih fun alternative among => each alternative (.tail _ among)]

/-!
## Tables
-/

private theorem mapM_entryOf?_inside {codec : Codec α} (stable : codec.decode.Stable)
    {first second : Medium} (alike : first.Alike second) {members placed : List (String × Json)}
    (distinct : (Json.object members).DistinctKeys) (inside : ReorderedInside members placed) :
    members.mapM (entryOf? codec.decode first) = placed.mapM (entryOf? codec.decode second) := by
  induction members generalizing placed with
  | nil => cases inside; rfl
  | cons head rest ih =>
      cases inside with
      | cons key reordered restInside =>
          have same := stable alike (distinct.member List.mem_cons_self) trivial reordered
          rw [List.mapM_cons, List.mapM_cons, ih (distinct.sublist (.cons _ (.refl _))) restInside]
          simp only [entryOf?, same]

/-- A table makes the same of reordered members if it refuses to choose between entries of
one address, or if there is nothing to choose. -/
private theorem table_stableOn_of {repetition : Repetition} {codec : Codec α}
    (stable : codec.decode.Stable) {suits : Json → Prop}
    (determined : ∀ {medium members entries}, suits (.object members) →
      members.mapM (entryOf? codec.decode medium) = some entries →
      repetition.Accepts (entries.map (·.1)) → (entries.map (·.1)).Nodup) :
    (Codec.table repetition codec).decode.StableOn suits := by
  intro first second alike value other distinct suited reordered
  cases reordered with
  | @object members placed others inside order =>
      have placedSame := mapM_entryOf?_inside stable alike distinct inside
      rw [outcome?_table, outcome?_table, placedSame]
      cases placedMade : placed.mapM (entryOf? codec.decode second) with
      | none =>
          cases othersMade : others.mapM (entryOf? codec.decode second) with
          | none => rfl
          | some entries =>
              obtain ⟨_, made, _⟩ := mapM_perm order.symm othersMade
              cases placedMade.symm.trans made
      | some entries =>
          obtain ⟨otherEntries, othersMade, entriesOrder⟩ := mapM_perm order placedMade
          have sameAccepted := repetition.accepts_iff_of_perm (entriesOrder.map (·.1))
          rw [othersMade, Option.bind_some, Option.bind_some]
          by_cases accepted : repetition.Accepts (entries.map (·.1))
          · have entriesDistinct := determined suited (placedSame.trans placedMade) accepted
            rw [if_pos accepted, if_pos (sameAccepted.mp accepted),
              AddressMap.ofList_eq_of_perm entriesDistinct entriesOrder]
          · rw [if_neg accepted, if_neg (mt sameAccepted.mpr accepted)]
  | _ => rfl

theorem table_refused_stable {codec : Codec α} (stable : codec.decode.Stable) :
    (Codec.table .refused codec).decode.Stable :=
  table_stableOn_of stable fun _ _ accepted => accepted.resolve_left nofun

theorem table_replaces_stableOn {codec : Codec α} (stable : codec.decode.Stable) :
    (Codec.table .replaces codec).decode.StableOn AddressesApart :=
  table_stableOn_of stable fun apart made _ => apart.nodup made

end Decoder

/-!
## Records
-/

namespace Fields

variable {suits : String → Json → Prop}

theorem pure_stableOn (value : α) (suits : String → Json → Prop) :
    (pure value : Fields σ α).StableOn suits where
  ofMembers _ _ _ _ := rfl
  ofItems _ _ _ _ := ⟨some value, takesItems_pure value _, takesItems_pure value _⟩

theorem Stable.stableOn {fields : Fields σ α} (stable : fields.Stable)
    (suits : String → Json → Prop) : fields.StableOn suits where
  ofMembers alike distinct _ reordered :=
    stable.ofMembers alike distinct (fun _ _ _ => trivial) reordered
  ofItems alike distinct _ reordered :=
    stable.ofItems alike distinct (fun _ _ _ => trivial) reordered

theorem StableOn.seq {fields : Fields σ (α → β)} {next : Fields σ α}
    (stable : fields.StableOn suits) (nextStable : next.StableOn suits) :
    (fields <*> next).StableOn suits where
  ofMembers alike distinct suited reordered := by
    rw [ofMembers?_seq, ofMembers?_seq,
      stable.ofMembers alike distinct (fun _ _ part => suited _ _ part.of_members) reordered,
      nextStable.ofMembers alike distinct (fun _ _ part => suited _ _ part.of_members) reordered]
  ofItems alike distinct suited reordered := by
    obtain ⟨f, first, firstOther⟩ :=
      stable.ofItems alike distinct (fun _ _ part => suited _ _ (part.append _)) reordered
    obtain ⟨x, second, secondOther⟩ :=
      nextStable.ofItems alike (distinct.drop _) (fun _ _ part => suited _ _ (part.of_drop _))
        (reordered.drop fields.names.length)
    exact ⟨_, first.seq second, firstOther.seq secondOther⟩

theorem Stable.seq {fields : Fields σ (α → β)} {next : Fields σ α} (stable : fields.Stable)
    (nextStable : next.Stable) : (fields <*> next).Stable :=
  StableOn.seq stable nextStable

theorem member_stableOn (name : String) {decode : Decoder α} (absent : Option α)
    (write : σ → List (String × Json)) (stable : decode.StableOn (suits name)) :
    (member name decode absent write).StableOn suits where
  ofMembers {first second members others} alike distinct suited reordered := by
    rw [ofMembers?_member name decode absent write distinct.keys_nodup,
      ofMembers?_member name decode absent write (reordered.keys_nodup distinct)]
    match held : members.lookup name, others.lookup name, reordered.lookup distinct name with
    | none, none, .none => rfl
    | some value, some other, .some valueReordered =>
        have among := (lookup_eq_some_iff_mem distinct.keys_nodup).mp held
        exact stable alike (distinct.lookup held) (suited name value (.member among))
          valueReordered
  ofItems {first second items others} alike distinct suited reordered := by
    refine ⟨_, takesItems_member name decode absent write first items, ?_⟩
    have taken := takesItems_member name decode absent write second others
    cases reordered with
    | list each =>
        cases each with
        | nil => exact taken
        | @cons item other _ _ itemReordered _ =>
            have named : [name][0]? = some name := rfl
            have suitedItem := suited name item (.item named rfl)
            have same := stable alike (distinct.item List.mem_cons_self) suitedItem itemReordered
            dsimp only at taken ⊢
            rw [same]
            exact taken

theorem pure_stable (value : α) : (pure value : Fields σ α).Stable := pure_stableOn value _

theorem required_stableOn (name : String) {codec : Codec α} (get : σ → α)
    (stable : codec.decode.StableOn (suits name)) : (required name codec get).StableOn suits :=
  member_stableOn name none _ stable

theorem required_stable (name : String) {codec : Codec α} (get : σ → α)
    (stable : codec.decode.Stable) : (required name codec get).Stable :=
  required_stableOn name get stable

theorem defaulted_stable (name : String) {codec : Codec α} (absent : α) (get : σ → α)
    (stable : codec.decode.Stable) : (defaulted name codec absent get).Stable :=
  member_stableOn name (some absent) _ stable

theorem optional_stable (name : String) {codec : Codec α} (get : σ → Option α)
    (stable : codec.decode.Stable) : (optional name codec get).Stable :=
  member_stableOn name (some none) _ (Decoder.Stable.option stable)

/-- A record is read alike from its reorderings if its parts are. -/
theorem StableOn.decoder {fields : Fields σ α} (stable : fields.StableOn suits) (owner : Owner) :
    (fields.decoder owner).StableOn fun value =>
      ∀ name part, HasPart fields.names value name part → suits name part := by
  intro first second alike value other distinct suited reordered
  cases reordered with
  | object inside order =>
      rw [outcome?_decoder_object, outcome?_decoder_object]
      exact stable.ofMembers alike distinct suited (.object inside order)
  | list each =>
      obtain ⟨result, taken, otherTaken⟩ := stable.ofItems alike distinct suited (.list each)
      rw [taken.outcome?_decoder_list, otherTaken.outcome?_decoder_list, each.length_eq]
  | _ => rfl

theorem Stable.decoder {fields : Fields σ α} (stable : fields.Stable) (owner : Owner) :
    (fields.decoder owner).Stable :=
  (StableOn.decoder stable owner).mono fun _ _ _ _ _ => trivial

end Fields

theorem Decoder.flattened_stable (name : String) {fields : Fields σ (α → β)}
    {inner : Decoder α} (stable : fields.Stable) (innerStable : inner.Stable) :
    (flattened name fields inner).Stable := by
  intro first second alike value other distinct _ reordered
  cases reordered with
  | @object members _ others inside order =>
      have reordered := Reordered.object inside order
      have rest := reordered.filter fun key => !fields.names.contains key
      rw [outcome?_flattened, outcome?_flattened,
        stable.ofMembers alike distinct (fun _ _ _ => trivial) reordered,
        innerStable (.refl .buffer) (distinct.sublist List.filter_sublist) trivial rest]
  | _ => rfl

end BatchAuction.Wire
