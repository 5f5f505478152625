import BatchAuction.Proofs.Json.Sorting
import BatchAuction.Proofs.Wire.Acceptance

/-!
# Records that are accepted

A record is read from an object by name or from a list by position. Either way it is
accepted just if every field takes the part that is there for it, nothing is damaged, no
name is repeated and no item is left over.
-/

set_option autoImplicit false

namespace BatchAuction.Wire

open Json

variable {α β σ : Type} {medium : Medium}

/-!
## Parts of a record
-/

/-- The part of a record that belongs to a name: the member of the name in an object, and
the item at the place of the name in a list. -/
def part? (names : List String) (document : Document) (name : String) : Option Document :=
  match document with
  | .object members ending _ => (Members.of ending members).entries.lookup name
  | .list items _ _ => items[names.idxOf name]?
  | _ => none

theorem part?_object (names : List String) (entries : List (String × Document))
    (tooDeep : Bool) : part? names (.object (spelled entries) .closed tooDeep) =
      (entries.lookup ·) := by
  funext name
  change (Members.of .closed (spelled entries)).entries.lookup name = _
  rw [Members.of_spelled, Members.whole]

/-- A document without damage that can hold a record of the names. Of an object the
members of other names are passed over. -/
inductive HoldsRecord (names : List String) : Document → Prop where
  | object {entries : List (String × Document)} :
      (∀ name ∈ names, (entries.map (·.1)).count name ≤ 1) →
      (∀ entry ∈ entries, entry.1 ∉ names → entry.2.skip? = none) →
      HoldsRecord names (.object (spelled entries) .closed false)
  | list {items : List Document} : items.length ≤ names.length →
      HoldsRecord names (.list items .closed false)

/-- What a field takes: the part that is there, decoded, or what stands for a missing
one. -/
def Takes (decode : Decoder α) (medium : Medium) (absent : Option α) :
    Option Document → α → Prop
  | some part, value => decode medium part = .ok value
  | none, value => absent = some value

/-- A member that is the only one of its name is the one that is found. -/
theorem lookup_of_count_le_one {γ : Type} {entries : List (String × γ)} {name : String} {value : γ}
    (once : (entries.map (·.1)).count name ≤ 1) (among : (name, value) ∈ entries) :
    entries.lookup name = some value := by
  induction entries with
  | nil => cases among
  | cons first rest ih =>
      rw [List.map_cons, List.count_cons] at once
      rw [lookup_cons_eq_ite]
      rcases List.mem_cons.mp among with rfl | among
      · exact if_pos rfl
      · have counted : 0 < (rest.map (·.1)).count name :=
          List.count_pos_iff.mpr (List.mem_map_of_mem (f := (·.1)) among)
        have other : first.1 ≠ name := by
          intro same
          rw [same, beq_self_eq_true, if_pos rfl] at once
          omega
        rw [if_neg (Ne.symm other)]
        exact ih (by omega) among

namespace Fields

theorem length_occurrences (name : String) (place : Nat) (entries : List (String × Document)) :
    (occurrences name place entries).length = (entries.map (·.1)).count name := by
  induction entries generalizing place with
  | nil => rfl
  | cons entry rest ih =>
      rw [occurrences, List.map_cons, List.count_cons]
      split
      · rename_i same
        rw [List.length_cons, ih, same, beq_self_eq_true, if_pos rfl]
      · rename_i different
        rw [ih, beq_eq_false_iff_ne.mpr different]
        rfl

theorem head?_occurrences (name : String) (place : Nat) (entries : List (String × Document)) :
    (occurrences name place entries).head?.map (·.2) = entries.lookup name := by
  induction entries generalizing place with
  | nil => rfl
  | cons entry rest ih =>
      obtain ⟨key, document⟩ := entry
      rw [occurrences, lookup_cons_eq_ite]
      split
      · rename_i same
        rw [if_pos same.symm]
        rfl
      · rename_i different
        rw [if_neg (Ne.symm different), ih]

theorem strayError?_eq_none_iff {names : List String} {place : Nat}
    {entries : List (String × Document)} :
    strayError? names place entries = none ↔
      ∀ entry ∈ entries, entry.1 ∉ names → entry.2.skip? = none := by
  induction entries generalizing place with
  | nil => simp [strayError?]
  | cons entry rest ih =>
      rw [strayError?, List.forall_mem_cons, ← @ih (place + 1)]
      by_cases wanted : entry.1 ∈ names
      · simp [wanted]
      · cases damage : entry.2.skip? <;> simp [wanted]

theorem fromMember_eq_ok_iff {name : String} {decode : Decoder α} {absent : Option α}
    {entries : List (String × Document)} {value : α} :
    fromMember name decode absent medium (.whole entries) = .ok value ↔
      (entries.map (·.1)).count name ≤ 1 ∧
        Takes decode medium absent (entries.lookup name) value := by
  rw [← length_occurrences name 0, ← head?_occurrences name 0]
  unfold fromMember Members.whole
  dsimp only
  cases occurrences name 0 entries with
  | nil => cases absent <;> simp [Takes]
  | cons first others =>
      obtain ⟨place, document⟩ := first
      simp only [List.head?_cons, Option.map_some, Takes, List.length_cons]
      cases decode medium document with
      | error error => simp
      | ok read => cases others <;> simp [repetition?]

theorem fromItem_eq_ok_iff {decode : Decoder α} {absent : Option α} {missing : Nat → Cause}
    {ending : ListEnd} {index : Nat} {items rest : List Document} {value : α} :
    fromItem decode absent medium missing ending index items = .ok (value, rest) ↔
      rest = items.drop 1 ∧ (items.length < 1 → ending.read? = none) ∧
        Takes decode medium absent items.head? value := by
  cases items with
  | nil =>
      unfold fromItem
      cases ending.read? <;> cases absent <;> simp [Takes, damaged, and_comm, eq_comm]
  | cons item items =>
      unfold fromItem
      cases read : decode medium item <;> simp [Takes, read, and_comm, eq_comm]

/-!
## Fields
-/

/-- What the fields make of the parts of a record. -/
structure Reads (fields : Fields σ α) (medium : Medium)
    (made : (String → Option Document) → α → Prop) : Prop where
  ofMembers : ∀ entries record, fields.fromMembers medium (.whole entries) = .ok record ↔
    (∀ name ∈ fields.names, (entries.map (·.1)).count name ≤ 1) ∧ made (entries.lookup ·) record
  ofItems : fields.names.Nodup → ∀ missing ending index items record rest,
    fields.fromItems medium missing ending index items = .ok (record, rest) ↔
      rest = items.drop fields.names.length ∧
        (items.length < fields.names.length → ending.read? = none) ∧
        made (fun name => items[fields.names.idxOf name]?) record
  /-- Only the parts of the own names matter. -/
  local_parts : ∀ parts others : String → Option Document,
    (∀ name ∈ fields.names, parts name = others name) → made parts = made others

theorem reads_pure (value : α) :
    (pure value : Fields σ α).Reads medium fun _ record => value = record where
  ofMembers entries record := by
    change Except.ok value = _ ↔ (∀ name ∈ [], _) ∧ _
    simp
  ofItems _ missing ending index items record rest := by
    change Except.ok (value, items) = _ ↔ rest = items.drop 0 ∧ (_ < 0 → _) ∧ _
    simp [eq_comm, and_comm]
  local_parts _ _ _ := rfl

theorem Reads.field {fields : Fields σ (α → β)}
    {made : (String → Option Document) → (α → β) → Prop} (reads : fields.Reads medium made)
    {name : String} {decode : Decoder α} {absent : Option α}
    {write : σ → List (String × Json)} :
    (fields <*> member name decode absent write).Reads medium fun parts record =>
      ∃ make, made parts make ∧
        ∃ part, Takes decode medium absent (parts name) part ∧ make part = record where
  ofMembers entries record := by
    have own : ∀ part, (member name decode absent write).fromMembers medium (.whole entries) =
        .ok part ↔ _ := fun part => fromMember_eq_ok_iff
    rw [seq_fromMembers_eq_ok_iff, names_seq_member]
    simp only [reads.ofMembers, own, List.forall_mem_append, List.forall_mem_singleton]
    constructor
    · rintro ⟨make, ⟨others, made⟩, part, ⟨once, takes⟩, rfl⟩
      exact ⟨⟨others, once⟩, make, made, part, takes, rfl⟩
    · rintro ⟨⟨others, once⟩, make, made, part, takes, rfl⟩
      exact ⟨make, ⟨others, made⟩, part, ⟨once, takes⟩, rfl⟩
  ofItems distinct missing ending index items record rest := by
    obtain ⟨othersDistinct, fresh⟩ := nodup_names_seq_member distinct
    have own : ∀ others part, (member name decode absent write).fromItems medium missing ending
        (index + fields.names.length) others = .ok (part, rest) ↔ _ :=
      fun others part => fromItem_eq_ok_iff
    have placed : (fields.names ++ [name]).idxOf name = fields.names.length := by
      rw [List.idxOf_append_of_notMem fresh, List.idxOf_cons_self, Nat.add_zero]
    have shared : made (fun other => items[(fields.names ++ [name]).idxOf other]?) =
        made (fun other => items[fields.names.idxOf other]?) :=
      reads.local_parts _ _ fun other among => by rw [List.idxOf_append_of_mem among]
    -- The other fields take the first items, and what they leave begins with the item for `name`.
    rw [seq_fromItems_eq_ok_iff, names_seq_member, List.length_append, List.length_singleton,
      ← List.drop_drop, shared]
    simp only [reads.ofItems othersDistinct, own, placed, ← List.head?_drop]
    constructor
    · rintro ⟨make, _, ⟨rfl, enough, made⟩, part, ⟨rfl, present, takes⟩, rfl⟩
      refine ⟨rfl, fun few => ?_, make, made, part, takes, rfl⟩
      by_cases short : items.length < fields.names.length
      · exact enough short
      · exact present (by rw [List.length_drop]; omega)
    · rintro ⟨rfl, enough, make, made, part, takes, rfl⟩
      refine ⟨make, _, ⟨rfl, fun few => enough (by omega), made⟩, part,
        ⟨rfl, fun few => enough ?_, takes⟩, rfl⟩
      rw [List.length_drop] at few
      omega
  local_parts parts others same := by
    rw [names_seq_member, List.forall_mem_append, List.forall_mem_singleton] at same
    simp only [reads.local_parts parts others same.1, same.2]

/-!
## Whole records
-/

theorem surplus?_eq_none {wanted length : Nat} {ending : ListEnd} {rest : List Document}
    (accepted : surplus? medium wanted length ending rest = none) :
    rest = [] ∧ ending = .closed := by
  unfold surplus? at accepted
  split at accepted
  · cases ending with
    | closed => exact ⟨rfl, rfl⟩
    | _ => simp [ListEnd.full?] at accepted
  · cases accepted
  · cases accepted

/-- A list is accepted as a record if it ends where it should, no item is left over and every
field takes its part. -/
theorem Reads.readList_eq_ok_iff {fields : Fields σ α}
    {made : (String → Option Document) → α → Prop} (reads : fields.Reads medium made)
    (distinct : fields.names.Nodup) (owner : Owner) {ending : ListEnd} {items : List Document}
    {record : α} :
    fields.readList owner medium ending items = .ok record ↔
      ending = .closed ∧ items.length ≤ fields.names.length ∧
        made (fun name => items[fields.names.idxOf name]?) record := by
  constructor
  · intro accepted
    obtain ⟨⟨value, rest⟩, read, accepted⟩ := ok_of_bind_ok accepted
    dsimp only at accepted
    split at accepted
    · rename_i fits
      cases accepted
      obtain ⟨rfl, closed⟩ := surplus?_eq_none fits
      obtain ⟨none, _, made⟩ := (reads.ofItems distinct ..).mp read
      exact ⟨closed, List.drop_eq_nil_iff.mp none.symm, made⟩
    · cases accepted
  · rintro ⟨rfl, few, made⟩
    have none : [] = items.drop fields.names.length := (List.drop_eq_nil_iff.mpr few).symm
    unfold readList
    dsimp only
    rw [(reads.ofItems distinct ..).mpr ⟨none, fun _ => rfl, made⟩]
    rfl

/-- A record is accepted just if nothing is damaged or left over and every field takes its
part. -/
theorem Reads.decoder_eq_ok_iff {fields : Fields σ α}
    {made : (String → Option Document) → α → Prop} (reads : fields.Reads medium made)
    (distinct : fields.names.Nodup) (owner : Owner) {document : Document} {record : α} :
    fields.decoder owner medium document = .ok record ↔
      HoldsRecord fields.names document ∧ made (part? fields.names document) record := by
  constructor
  · intro accepted
    cases document with
    | object members ending tooDeep =>
        obtain ⟨entries, rfl, rfl, rfl, strays, read⟩ := decoder_object_eq_ok_iff.mp accepted
        obtain ⟨once, made⟩ := (reads.ofMembers ..).mp read
        refine ⟨.object once (strayError?_eq_none_iff.mp strays), ?_⟩
        rwa [part?_object]
    | list items ending tooDeep =>
        cases tooDeep with
        | true => cases accepted
        | false =>
            obtain ⟨rfl, few, made⟩ := (reads.readList_eq_ok_iff distinct owner).mp accepted
            exact ⟨.list few, made⟩
    | number | text => exact absurd accepted mismatch_ne_ok
    | _ => cases accepted
  · rintro ⟨holds, made⟩
    cases holds with
    | @object entries once strays =>
        rw [part?_object] at made
        exact decoder_object_eq_ok_iff.mpr ⟨entries, rfl, rfl, rfl,
          strayError?_eq_none_iff.mpr strays, (reads.ofMembers ..).mpr ⟨once, made⟩⟩
    | list few => exact (reads.readList_eq_ok_iff distinct owner).mpr ⟨rfl, few, made⟩

end Fields

end BatchAuction.Wire
