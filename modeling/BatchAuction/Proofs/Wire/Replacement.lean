import BatchAuction.Proofs.Json.Sorting
import BatchAuction.Proofs.Json.Spelling
import BatchAuction.Wire.Error

/-!
# One part in the place of another

A path leads to a part of a value. Where no key is repeated, the value with another part at
the end of the path makes documents that differ just there, both as it is sorted in memory
and as its text is read.
-/

set_option autoImplicit false

namespace BatchAuction.Wire

open Json

/-!
## Paths in values
-/

/-- The part of a value at the end of a path. -/
def partAt? : List Segment → Json → Option Json
  | [], value => some value
  | .member key :: path, .object members => (members.lookup key).bind (partAt? path)
  | .element index :: path, .list items => items[index]?.bind (partAt? path)
  | _ :: _, _ => none

/-- The value with another part at the end of a path. -/
def replaceAt (part : Json) : List Segment → Json → Json
  | [], _ => part
  | .member key :: path, .object members =>
      .object (members.map fun member =>
        if member.1 = key then (member.1, replaceAt part path member.2) else member)
  | .element index :: path, .list items => .list (items.modify index (replaceAt part path))
  | _ :: _, value => value

/-!
## Paths in documents
-/

/-- The second whole has the new part where the first one has the old part, at the end of the
path, and is the same otherwise. -/
inductive Exchanged (old new : Document) : List Segment → Document → Document → Prop where
  | here : Exchanged old new [] old new
  | element {index : Nat} {path : List Segment} {part changed : Document}
      {before after : List Document} {ending : ListEnd} {tooDeep : Bool} :
      before.length = index → Exchanged old new path part changed →
      Exchanged old new (.element index :: path) (.list (before ++ part :: after) ending tooDeep)
        (.list (before ++ changed :: after) ending tooDeep)
  | member {key : String} {path : List Segment} {part changed : Document}
      {before after : List (Readable String × Document)} {ending : ObjectEnd} {tooDeep : Bool} :
      Exchanged old new path part changed →
      Exchanged old new (.member key :: path)
        (.object (before ++ (.ok key, part) :: after) ending tooDeep)
        (.object (before ++ (.ok key, changed) :: after) ending tooDeep)

variable {old new : Document} {path rest : List Segment} {whole other : Document}

/-- An exchange at the end of two paths is an exchange at the end of the first one. -/
theorem Exchanged.split (exchanged : Exchanged old new (path ++ rest) whole other) :
    ∃ part changed, Exchanged part changed path whole other ∧
      Exchanged old new rest part changed := by
  induction path generalizing whole other with
  | nil => exact ⟨whole, other, .here, exchanged⟩
  | cons segment path ih =>
      cases exchanged with
      | element placed inner =>
          obtain ⟨part, changed, outer, inner⟩ := ih inner
          exact ⟨part, changed, .element placed outer, inner⟩
      | member inner =>
          obtain ⟨part, changed, outer, inner⟩ := ih inner
          exact ⟨part, changed, .member outer, inner⟩

/-!
## One item or one member
-/

variable {value part : Json} {items : List Json} {members : List (String × Json)}

theorem exists_item_split {index : Nat} (found : items[index]? = some value) :
    ∃ before after, before.length = index ∧ items = before ++ value :: after ∧
      ∀ change : Json → Json, items.modify index change = before ++ change value :: after := by
  induction items generalizing index with
  | nil => cases found
  | cons item rest ih =>
      cases index with
      | zero =>
          cases found
          exact ⟨[], rest, rfl, rfl, fun _ => rfl⟩
      | succ index =>
          obtain ⟨before, after, placed, same, changed⟩ := ih found
          refine ⟨item :: before, after, congrArg (· + 1) placed, congrArg (item :: ·) same, ?_⟩
          exact fun change => congrArg (item :: ·) (changed change)

theorem exists_member_split {key : String} (distinct : (members.map (·.1)).Nodup)
    (found : members.lookup key = some value) :
    ∃ before after, members = before ++ (key, value) :: after ∧ key ∉ after.map (·.1) ∧
      ∀ change : Json → Json, (members.map fun member =>
        if member.1 = key then (member.1, change member.2) else member) =
          before ++ (key, change value) :: after := by
  induction members with
  | nil => cases found
  | cons member rest ih =>
      obtain ⟨first, held⟩ := member
      obtain ⟨fresh, restDistinct⟩ := List.nodup_cons.mp distinct
      rw [lookup_cons_eq_ite] at found
      by_cases same : key = first
      · subst same
        rw [if_pos rfl] at found
        cases found
        refine ⟨[], rest, rfl, fresh, fun change => ?_⟩
        have kept : (rest.map fun member =>
            if member.1 = key then (member.1, change member.2) else member) = rest :=
          (List.map_congr_left fun member among =>
            if_neg fun same => fresh (List.mem_map.mpr ⟨member, among, same⟩)).trans
            (List.map_id' rest)
        rw [List.map_cons, kept, if_pos rfl]
        rfl
      · rw [if_neg same] at found
        obtain ⟨before, after, rfl, fresh, changed⟩ := ih restDistinct found
        refine ⟨(first, held) :: before, after, rfl, fresh, fun change => ?_⟩
        rw [List.map_cons, if_neg (Ne.symm same), changed change]
        rfl

/-- The second value has the new part where the first one has the old part, at the end of a
path along which every key leads to one member. -/
inductive Replaced (old new : Json) : List Segment → Json → Json → Prop where
  | here : Replaced old new [] old new
  | element {index : Nat} {path : List Segment} {part changed : Json} {before after : List Json} :
      before.length = index → Replaced old new path part changed →
      Replaced old new (.element index :: path) (.list (before ++ part :: after))
        (.list (before ++ changed :: after))
  | member {key : String} {path : List Segment} {part changed : Json}
      {before after : List (String × Json)} :
      key ∉ after.map (·.1) → Replaced old new path part changed →
      Replaced old new (.member key :: path) (.object (before ++ (key, part) :: after))
        (.object (before ++ (key, changed) :: after))

theorem replaced_replaceAt {old new whole : Json} {path : List Segment}
    (distinct : whole.DistinctKeys) (found : partAt? path whole = some old) :
    Replaced old new path whole (replaceAt new path whole) := by
  induction path generalizing whole with
  | nil =>
      cases found
      exact .here
  | cons segment path ih =>
      cases segment with
      | unnamed => cases whole <;> cases found
      | element index =>
          cases whole with
          | list items =>
              obtain ⟨value, held, within⟩ := Option.bind_eq_some_iff.mp found
              obtain ⟨before, after, placed, rfl, changed⟩ := exists_item_split held
              rw [replaceAt, changed]
              exact .element placed (ih (distinct.item (List.mem_append_cons_self)) within)
          | _ => cases found
      | member key =>
          cases whole with
          | object members =>
              obtain ⟨value, held, within⟩ := Option.bind_eq_some_iff.mp found
              obtain ⟨before, after, rfl, fresh, changed⟩ :=
                exists_member_split distinct.keys_nodup held
              have inner : value.DistinctKeys :=
                distinct.member (List.mem_append_right before List.mem_cons_self)
              rw [replaceAt, changed]
              exact .member fresh (ih inner within)
          | _ => cases found

/-!
## What a replacement keeps
-/

/-- The nesting grows by what the new part brings along at most. -/
theorem Replaced.fits {old new whole other : Json} {path : List Segment} {depth more : Nat}
    (replaced : Replaced old new path whole other) (fits : whole.Fits depth)
    (newFits : new.Fits more) : other.Fits (depth + more) := by
  induction replaced generalizing depth with
  | here => exact newFits.mono (Nat.le_add_left more depth)
  | element _ _ ih =>
      cases fits with
      | @list depth _ each =>
          rw [List.forall_mem_append, List.forall_mem_cons] at each
          obtain ⟨beforeFit, partFits, afterFit⟩ := each
          rw [Nat.add_right_comm]
          refine .list ?_
          rw [List.forall_mem_append, List.forall_mem_cons]
          exact ⟨fun item among => (beforeFit item among).mono (Nat.le_add_right depth more),
            ih partFits, fun item among => (afterFit item among).mono (Nat.le_add_right depth more)⟩
  | member _ _ ih =>
      cases fits with
      | @object depth _ keys each =>
          rw [List.forall_mem_append, List.forall_mem_cons] at each
          obtain ⟨beforeFit, partFits, afterFit⟩ := each
          rw [List.map_append, List.map_cons] at keys
          rw [Nat.add_right_comm]
          refine .object (by rwa [List.map_append, List.map_cons]) ?_
          rw [List.forall_mem_append, List.forall_mem_cons]
          exact ⟨fun member among => (beforeFit member among).mono (Nat.le_add_right depth more),
            ih partFits,
            fun member among => (afterFit member among).mono (Nat.le_add_right depth more)⟩

theorem itemReals_append (items others : List Json) :
    itemReals (items ++ others) = itemReals items ++ itemReals others := by
  induction items with
  | nil => rfl
  | cons item rest ih => rw [List.cons_append, itemReals, ih, itemReals, List.append_assoc]

theorem memberReals_append (members others : List (String × Json)) :
    memberReals (members ++ others) = memberReals members ++ memberReals others := by
  induction members with
  | nil => rfl
  | cons member rest ih => rw [List.cons_append, memberReals, ih, memberReals, List.append_assoc]

/-- No doubles come from anywhere else. -/
theorem Replaced.reals_subset {old new whole other : Json} {path : List Segment}
    (replaced : Replaced old new path whole other) : other.reals ⊆ whole.reals ++ new.reals := by
  induction replaced with
  | here => exact List.subset_append_right _ _
  | element _ _ ih =>
      intro x within
      simp only [reals, itemReals_append, itemReals, List.mem_append] at within ⊢
      have inner := @ih x
      rw [List.mem_append] at inner
      tauto
  | member _ _ ih =>
      intro x within
      simp only [reals, memberReals_append, memberReals, List.mem_append] at within ⊢
      have inner := @ih x
      rw [List.mem_append] at inner
      tauto

theorem Replaced.reals_eq_nil {old new whole other : Json} {path : List Segment}
    (replaced : Replaced old new path whole other) (plain : whole.reals = [])
    (newPlain : new.reals = []) : other.reals = [] := by
  have within := replaced.reals_subset
  rw [plain, newPlain] at within
  exact List.eq_nil_of_subset_nil within

/-!
## Documents of values
-/

theorem sortedItems_append (items others : List Json) :
    sortedItems (items ++ others) = sortedItems items ++ sortedItems others := by
  induction items with
  | nil => rfl
  | cons item rest ih => rw [List.cons_append, sortedItems, ih, sortedItems, List.cons_append]

theorem length_sortedItems (items : List Json) : (sortedItems items).length = items.length := by
  induction items with
  | nil => rfl
  | cons item rest ih => rw [sortedItems, List.length_cons, ih, List.length_cons]

theorem sortedMembers_append (members others : List (String × Json)) :
    sortedMembers (members ++ others) = sortedMembers members ++ sortedMembers others := by
  induction members with
  | nil => rfl
  | cons member rest ih => rw [List.cons_append, sortedMembers, ih, sortedMembers, List.cons_append]

theorem itemDocuments_eq_map (items : List Json) : itemDocuments items = items.map toDocument := by
  induction items with
  | nil => rfl
  | cons item rest ih => rw [itemDocuments, ih, List.map_cons]

theorem memberDocuments_eq_map (members : List (String × Json)) :
    memberDocuments members = members.map fun member => (.ok member.1, member.2.toDocument) := by
  induction members with
  | nil => rfl
  | cons member rest ih => rw [memberDocuments, ih, List.map_cons]

theorem itemDocumentsAt_eq_map (depth : Nat) (items : List Json) :
    itemDocumentsAt depth items = items.map (documentAt depth) := by
  induction items with
  | nil => rfl
  | cons item rest ih => rw [itemDocumentsAt, ih, List.map_cons]

theorem memberDocumentsAt_eq_map (depth : Nat) (members : List (String × Json)) :
    memberDocumentsAt depth members =
      members.map fun member => (.ok member.1, member.2.documentAt depth) := by
  induction members with
  | nil => rfl
  | cons member rest ih => rw [memberDocumentsAt, ih, List.map_cons]

/-- Sorted in memory, the two values differ at the end of the path. -/
theorem Replaced.exchanged_sorted {old new whole other : Json} {path : List Segment}
    (replaced : Replaced old new path whole other) :
    Exchanged old.sorted.toDocument new.sorted.toDocument path whole.sorted.toDocument
      other.sorted.toDocument := by
  induction replaced with
  | here => exact .here
  | element placed _ inner =>
      simp only [sorted, toDocument, sortedItems_append, sortedItems, itemDocuments_eq_map,
        List.map_append, List.map_cons]
      exact .element (by rw [List.length_map, length_sortedItems, placed]) inner
  | @member key path part changed before after fresh _ inner =>
      rw [← map_fst_sortedMembers] at fresh
      obtain ⟨front, back, settled⟩ := exists_sortMembers_split (sortedMembers before) fresh
      simp only [sorted, toDocument, sortedMembers_append, sortedMembers, settled,
        memberDocuments_eq_map, List.map_append, List.map_cons]
      exact .member inner

/-- As their texts are read, the two values differ at the end of the path. -/
theorem Replaced.exchanged_documentAt {old new whole other : Json} {path : List Segment}
    (replaced : Replaced old new path whole other) (depth : Nat) :
    ∃ inner, Exchanged (old.documentAt inner) (new.documentAt inner) path (whole.documentAt depth)
      (other.documentAt depth) := by
  induction replaced generalizing depth with
  | here => exact ⟨depth, .here⟩
  | element placed _ ih =>
      obtain ⟨inner, exchanged⟩ := ih (depth + 1)
      refine ⟨inner, ?_⟩
      simp only [documentAt, itemDocumentsAt_eq_map, List.map_append, List.map_cons]
      exact .element (by rw [List.length_map, placed]) exchanged
  | member _ _ ih =>
      obtain ⟨inner, exchanged⟩ := ih (depth + 1)
      refine ⟨inner, ?_⟩
      simp only [documentAt, memberDocumentsAt_eq_map, List.map_append, List.map_cons]
      exact .member exchanged

end BatchAuction.Wire
