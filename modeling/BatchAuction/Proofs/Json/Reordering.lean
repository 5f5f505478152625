import BatchAuction.Json.Value
import Mathlib.Data.List.Forall2
import Mathlib.Data.List.Nodup
import Mathlib.Data.List.Perm.Basic

/-!
# The order of members

Two values that differ in the order of the members of their objects, at any depth. Where
no object repeats a key, the sorted form of a value is one of its reorderings, and every
key leads to the same member in both.
-/

set_option autoImplicit false

namespace BatchAuction.Json

/-- No object in the value repeats a key. -/
inductive DistinctKeys : Json → Prop where
  | null : DistinctKeys .null
  | boolean (value : Bool) : DistinctKeys (.boolean value)
  | number (value : Number) : DistinctKeys (.number value)
  | text (value : String) : DistinctKeys (.text value)
  | list {items : List Json} : (∀ item ∈ items, DistinctKeys item) → DistinctKeys (.list items)
  | object {members : List (String × Json)} : (members.map (·.1)).Nodup →
      (∀ member ∈ members, DistinctKeys member.2) → DistinctKeys (.object members)

mutual

/-- The second value is the first one with the members of its objects in some order. -/
inductive Reordered : Json → Json → Prop where
  | null : Reordered .null .null
  | boolean (value : Bool) : Reordered (.boolean value) (.boolean value)
  | number (value : Number) : Reordered (.number value) (.number value)
  | text (value : String) : Reordered (.text value) (.text value)
  | list {items others : List Json} : List.Forall₂ Reordered items others →
      Reordered (.list items) (.list others)
  | object {members placed others : List (String × Json)} : ReorderedInside members placed →
      placed.Perm others → Reordered (.object members) (.object others)

/-- Members of the same keys in the same order, with reordered values. -/
inductive ReorderedInside : List (String × Json) → List (String × Json) → Prop where
  | nil : ReorderedInside [] []
  | cons {value other : Json} {members others : List (String × Json)} (key : String) :
      Reordered value other → ReorderedInside members others →
      ReorderedInside ((key, value) :: members) ((key, other) :: others)

end

variable {value other : Json} {items otherItems : List Json}
  {members placed others : List (String × Json)} {key : String}

/-!
## Parts of a value without repeated keys
-/

theorem DistinctKeys.item (distinct : (Json.list items).DistinctKeys) {item : Json}
    (among : item ∈ items) : item.DistinctKeys := by
  cases distinct with
  | list each => exact each item among

theorem DistinctKeys.keys_nodup (distinct : (Json.object members).DistinctKeys) :
    (members.map (·.1)).Nodup := by
  cases distinct with
  | object keys _ => exact keys

theorem DistinctKeys.member (distinct : (Json.object members).DistinctKeys)
    {member : String × Json} (among : member ∈ members) : member.2.DistinctKeys := by
  cases distinct with
  | object _ each => exact each member among

theorem DistinctKeys.sublist (distinct : (Json.object members).DistinctKeys)
    (fewer : others.Sublist members) : (Json.object others).DistinctKeys :=
  .object (distinct.keys_nodup.sublist (fewer.map _)) fun _ among =>
    distinct.member (fewer.subset among)

theorem DistinctKeys.drop (distinct : (Json.list items).DistinctKeys) (count : Nat) :
    (Json.list (items.drop count)).DistinctKeys :=
  .list fun _ among => distinct.item (List.mem_of_mem_drop among)

theorem DistinctKeys.tail {item : Json} (distinct : (Json.list (item :: items)).DistinctKeys) :
    (Json.list items).DistinctKeys :=
  distinct.drop 1

/-!
## Reordering not at all and twice
-/

mutual

theorem Reordered.refl : ∀ value : Json, value.Reordered value
  | .null => .null
  | .boolean value => .boolean value
  | .number value => .number value
  | .text value => .text value
  | .list items => .list (refl_items items)
  | .object members => .object (refl_inside members) (.refl members)

theorem refl_items : ∀ items : List Json, List.Forall₂ Reordered items items
  | [] => .nil
  | item :: rest => .cons (Reordered.refl item) (refl_items rest)

theorem refl_inside : ∀ members : List (String × Json), ReorderedInside members members
  | [] => .nil
  | (key, value) :: rest => .cons key (Reordered.refl value) (refl_inside rest)

end

theorem reorderedInside_iff_forall₂ : ReorderedInside members placed ↔
    List.Forall₂ (fun member other => member.1 = other.1 ∧ member.2.Reordered other.2)
      members placed := by
  constructor
  · intro inside
    induction members generalizing placed with
    | nil => cases inside; exact .nil
    | cons head rest ih =>
        cases inside with
        | cons key reordered restInside => exact .cons ⟨rfl, reordered⟩ (ih restInside)
  · intro each
    induction each with
    | nil => exact .nil
    | @cons head other _ _ both _ ih =>
        obtain ⟨key, value⟩ := head
        obtain ⟨otherKey, otherValue⟩ := other
        obtain ⟨rfl, reordered⟩ := both
        exact .cons key reordered ih

mutual

theorem Reordered.trans : ∀ {value middle other : Json}, value.Reordered middle →
    middle.Reordered other → value.Reordered other
  | .null, _, _, first, second => by cases first; exact second
  | .boolean _, _, _, first, second => by cases first; exact second
  | .number _, _, _, first, second => by cases first; exact second
  | .text _, _, _, first, second => by cases first; exact second
  | .list items, _, _, first, second => by
      cases first with
      | list firstEach =>
          cases second with
          | list secondEach => exact .list (trans_items firstEach secondEach)
  | .object members, _, _, first, second => by
      cases first with
      | object firstInside firstOrder =>
          cases second with
          | object secondInside secondOrder =>
              -- The reordering of the values is carried to the front of both permutations.
              obtain ⟨placed, moved, order⟩ :=
                List.perm_comp_forall₂ firstOrder (reorderedInside_iff_forall₂.mp secondInside)
              exact .object (trans_inside firstInside (reorderedInside_iff_forall₂.mpr moved))
                (order.trans secondOrder)

theorem trans_items : ∀ {items middle others : List Json},
    List.Forall₂ Reordered items middle → List.Forall₂ Reordered middle others →
    List.Forall₂ Reordered items others
  | [], _, _, first, second => by cases first; exact second
  | _ :: _, _, _, first, second => by
      cases first with
      | cons firstHead firstRest =>
          cases second with
          | cons secondHead secondRest =>
              exact .cons (firstHead.trans secondHead) (trans_items firstRest secondRest)

theorem trans_inside : ∀ {members middle others : List (String × Json)},
    ReorderedInside members middle → ReorderedInside middle others →
    ReorderedInside members others
  | [], _, _, first, second => by cases first; exact second
  | (_, _) :: _, _, _, first, second => by
      cases first with
      | cons key firstHead firstRest =>
          cases second with
          | cons _ secondHead secondRest =>
              exact .cons _ (firstHead.trans secondHead) (trans_inside firstRest secondRest)

end

theorem ReorderedInside.map_fst_eq (inside : ReorderedInside members placed) :
    members.map (·.1) = placed.map (·.1) := by
  induction members generalizing placed with
  | nil => cases inside; rfl
  | cons head rest ih =>
      cases inside with
      | cons key _ restInside => exact congrArg (key :: ·) (ih restInside)

theorem ReorderedInside.length_eq (inside : ReorderedInside members placed) :
    members.length = placed.length := by
  simpa using congrArg List.length inside.map_fst_eq

theorem Reordered.keys_nodup (reordered : (Json.object members).Reordered (.object others))
    (distinct : (Json.object members).DistinctKeys) : (others.map (·.1)).Nodup := by
  cases reordered with
  | object inside order =>
      have keys := distinct.keys_nodup
      rw [inside.map_fst_eq] at keys
      exact (order.map _).nodup_iff.mp keys

/-- Whatever stands in the second of two related lists is related to something in the
first. -/
theorem exists_of_mem_forall₂ {α β : Type} {related : α → β → Prop} {left : List α}
    {right : List β} (each : List.Forall₂ related left right) {other : β}
    (among : other ∈ right) : ∃ value ∈ left, related value other := by
  induction each with
  | nil => cases among
  | @cons value head _ _ both _ ih =>
      rcases List.mem_cons.mp among with rfl | later
      · exact ⟨value, List.mem_cons_self, both⟩
      · obtain ⟨value, held, both⟩ := ih later
        exact ⟨value, .tail _ held, both⟩

/-- Every member of a reordering comes from a member of the same key. -/
theorem exists_of_mem_reordered (inside : ReorderedInside members placed)
    (order : placed.Perm others) {member : String × Json} (among : member ∈ others) :
    ∃ original ∈ members, original.2.Reordered member.2 := by
  obtain ⟨original, held, _, reordered⟩ :=
    exists_of_mem_forall₂ (reorderedInside_iff_forall₂.mp inside) (order.mem_iff.mpr among)
  exact ⟨original, held, reordered⟩

/-- A reordering repeats no key where the value does not. -/
theorem Reordered.distinctKeys (reordered : value.Reordered other)
    (distinct : value.DistinctKeys) : other.DistinctKeys := by
  induction distinct generalizing other with
  | null => cases reordered; exact .null
  | boolean value => cases reordered; exact .boolean value
  | number value => cases reordered; exact .number value
  | text value => cases reordered; exact .text value
  | list _ ih =>
      cases reordered with
      | list each =>
          refine .list fun item among => ?_
          obtain ⟨original, held, reordered⟩ := exists_of_mem_forall₂ each among
          exact ih original held reordered
  | object keys each ih =>
      cases reordered with
      | object inside order =>
          refine .object ((Reordered.object inside order).keys_nodup (.object keys each))
            fun member among => ?_
          obtain ⟨original, held, reordered⟩ := exists_of_mem_reordered inside order among
          exact ih original held reordered

/-!
## Sorting
-/

/-- A member of a new key is put somewhere among the others. -/
theorem insertMember_perm (value : Json) (fresh : key ∉ members.map (·.1)) :
    (insertMember key value members).Perm ((key, value) :: members) := by
  induction members with
  | nil => exact .refl _
  | cons head rest ih =>
      obtain ⟨other, held⟩ := head
      rw [List.map_cons, List.mem_cons, not_or] at fresh
      obtain ⟨different, restFresh⟩ := fresh
      unfold insertMember
      split
      · exact .refl _
      · exact ((ih restFresh).cons (other, held)).trans (.swap ..)

private theorem foldl_insertMember_perm (distinct : ((members ++ placed).map (·.1)).Nodup) :
    (members.foldl (fun sorted member => insertMember member.1 member.2 sorted) placed).Perm
      (members ++ placed) := by
  induction members generalizing placed with
  | nil => exact .refl _
  | cons head rest ih =>
      obtain ⟨fresh, restDistinct⟩ := List.nodup_cons.mp distinct
      have inserted : (insertMember head.1 head.2 placed).Perm (head :: placed) :=
        insertMember_perm head.2 fun among => fresh <| by
          obtain ⟨member, held, same⟩ := List.mem_map.mp among
          exact List.mem_map.mpr ⟨member, List.mem_append_right _ held, same⟩
      have moved : (rest ++ insertMember head.1 head.2 placed).Perm (head :: (rest ++ placed)) :=
        (inserted.append_left rest).trans List.perm_middle
      exact (ih ((moved.map _).nodup_iff.mpr distinct)).trans moved

theorem sortMembers_perm (distinct : (members.map (·.1)).Nodup) :
    (sortMembers members).Perm members := by
  have sorted : (sortMembers members).Perm (members ++ []) :=
    foldl_insertMember_perm (by simpa)
  rw [List.append_nil] at sorted
  exact sorted

theorem map_fst_sortedMembers (members : List (String × Json)) :
    (sortedMembers members).map (·.1) = members.map (·.1) := by
  induction members with
  | nil => rfl
  | cons head rest ih =>
      rw [sortedMembers]
      exact congrArg (head.1 :: ·) ih

mutual

/-- Where no key is repeated, sorting only changes the order of members. -/
theorem DistinctKeys.reordered_sorted : ∀ {value : Json}, value.DistinctKeys →
    value.Reordered value.sorted
  | .null, _ => by rw [sorted]; exact .null
  | .boolean value, _ => by rw [sorted]; exact .boolean value
  | .number value, _ => by rw [sorted]; exact .number value
  | .text value, _ => by rw [sorted]; exact .text value
  | .list items, distinct => by
      rw [sorted]
      exact .list (reordered_sortedItems items fun _ among => distinct.item among)
  | .object members, distinct => by
      rw [sorted]
      have keys : ((sortedMembers members).map (·.1)).Nodup := by
        rw [map_fst_sortedMembers]
        exact distinct.keys_nodup
      exact .object (reordered_sortedMembers members fun _ among => distinct.member among)
        (sortMembers_perm keys).symm

theorem reordered_sortedItems : ∀ items : List Json, (∀ item ∈ items, item.DistinctKeys) →
    List.Forall₂ Reordered items (sortedItems items)
  | [], _ => by rw [sortedItems]; exact .nil
  | item :: rest, distinct => by
      rw [sortedItems]
      exact .cons (distinct item List.mem_cons_self).reordered_sorted
        (reordered_sortedItems rest fun other among => distinct other (.tail _ among))

theorem reordered_sortedMembers : ∀ members : List (String × Json),
    (∀ member ∈ members, member.2.DistinctKeys) → ReorderedInside members (sortedMembers members)
  | [], _ => by rw [sortedMembers]; exact .nil
  | (key, value) :: rest, distinct => by
      rw [sortedMembers]
      exact .cons key (distinct (key, value) List.mem_cons_self).reordered_sorted
        (reordered_sortedMembers rest fun other among => distinct other (.tail _ among))

end

theorem Reordered.drop (reordered : (Json.list items).Reordered (.list otherItems))
    (count : Nat) : (Json.list (items.drop count)).Reordered (.list (otherItems.drop count)) := by
  cases reordered with
  | list each => exact .list (List.forall₂_drop count each)

/-!
## Looking members up
-/

theorem lookup_eq_some_iff_mem (distinct : (members.map (·.1)).Nodup) :
    members.lookup key = some value ↔ (key, value) ∈ members := by
  induction members with
  | nil => simp
  | cons head rest ih =>
      obtain ⟨first, held⟩ := head
      obtain ⟨fresh, restDistinct⟩ := List.nodup_cons.mp distinct
      by_cases same : key = first
      · subst same
        have absent : (key, value) ∉ rest := fun among =>
          fresh (List.mem_map.mpr ⟨_, among, rfl⟩)
        simp [absent, eq_comm]
      · rw [List.lookup_cons, beq_eq_false_iff_ne.mpr same]
        simp [same, ih restDistinct]

theorem DistinctKeys.lookup (distinct : (Json.object members).DistinctKeys)
    (found : members.lookup key = some value) : value.DistinctKeys :=
  distinct.member ((lookup_eq_some_iff_mem distinct.keys_nodup).mp found)

theorem lookup_eq_none_iff_notMem :
    members.lookup key = none ↔ key ∉ members.map (·.1) := by
  rw [List.lookup_eq_none_iff, List.mem_map]
  constructor
  · rintro absent ⟨member, among, rfl⟩
    simpa using absent member among
  · intro absent member among
    exact bne_iff_ne.mpr fun same => absent ⟨member, among, same.symm⟩

theorem lookup_perm (distinct : (members.map (·.1)).Nodup) (order : members.Perm others) :
    members.lookup key = others.lookup key := by
  ext value
  rw [lookup_eq_some_iff_mem distinct,
    lookup_eq_some_iff_mem ((order.map _).nodup_iff.mp distinct), order.mem_iff]

theorem ReorderedInside.lookup (inside : ReorderedInside members placed) (key : String) :
    Option.Rel Reordered (members.lookup key) (placed.lookup key) := by
  induction members generalizing placed with
  | nil => cases inside; exact .none
  | cons head rest ih =>
      cases inside with
      | @cons value other _ _ first reordered restInside =>
          rw [List.lookup_cons, List.lookup_cons]
          cases key == first with
          | true => exact .some reordered
          | false => exact ih restInside

theorem ReorderedInside.filter (inside : ReorderedInside members placed) (keep : String → Bool) :
    ReorderedInside (members.filter (keep ·.1)) (placed.filter (keep ·.1)) := by
  induction members generalizing placed with
  | nil => cases inside; exact .nil
  | cons head rest ih =>
      cases inside with
      | cons key reordered restInside =>
          rw [List.filter_cons, List.filter_cons]
          cases keep key with
          | true => exact .cons key reordered (ih restInside)
          | false => exact ih restInside

/-- Where no key is repeated, a key leads to the same member whatever the order. -/
theorem Reordered.lookup (reordered : (Json.object members).Reordered (.object others))
    (distinct : (Json.object members).DistinctKeys) (key : String) :
    Option.Rel Reordered (members.lookup key) (others.lookup key) := by
  cases reordered with
  | object inside order =>
      have keys := distinct.keys_nodup
      rw [inside.map_fst_eq] at keys
      rw [← lookup_perm keys order]
      exact inside.lookup key

theorem Reordered.filter (reordered : (Json.object members).Reordered (.object others))
    (keep : String → Bool) :
    (Json.object (members.filter (keep ·.1))).Reordered
      (.object (others.filter (keep ·.1))) := by
  cases reordered with
  | object inside order => exact .object (inside.filter keep) (order.filter _)

/-!
## Parts of records and lists
-/

/-- The parts of a record: the members of an object by their keys, and the items of a list
by the names at their places. -/
inductive HasPart (names : List String) : Json → String → Json → Prop where
  | member {members : List (String × Json)} {key : String} {part : Json} :
      (key, part) ∈ members → HasPart names (.object members) key part
  | item {items : List Json} {index : Nat} {name : String} {part : Json} :
      names[index]? = some name → items[index]? = some part → HasPart names (.list items) name part

theorem HasPart.append {names : List String} {name : String} {part : Json}
    (holds : HasPart names value name part) (later : List String) :
    HasPart (names ++ later) value name part := by
  cases holds with
  | member among => exact .member among
  | item named placed =>
      have below := (List.getElem?_eq_some_iff.mp named).1
      exact .item ((List.getElem?_append_left below).trans named) placed

theorem HasPart.of_members {names others : List String} {name : String} {part : Json}
    (holds : HasPart names (.object members) name part) :
    HasPart others (.object members) name part := by
  cases holds with
  | member among => exact .member among

theorem HasPart.of_drop {names : List String} (earlier : List String) {name : String}
    {part : Json} (holds : HasPart names (.list (items.drop earlier.length)) name part) :
    HasPart (earlier ++ names) (.list items) name part := by
  cases holds with
  | @item _ index _ _ named placed =>
      have nameThere : (earlier ++ names)[earlier.length + index]? = some name := by
        rw [List.getElem?_append_right (Nat.le_add_right ..), Nat.add_sub_cancel_left, named]
      have partThere : items[earlier.length + index]? = some part := by
        rw [← List.getElem?_drop, placed]
      exact .item nameThere partThere

/-- A property of every item of a list. -/
def EachItem (holds : Json → Prop) : Json → Prop
  | .list items => ∀ item ∈ items, holds item
  | _ => True

end BatchAuction.Json
