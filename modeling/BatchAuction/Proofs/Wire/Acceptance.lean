import BatchAuction.Proofs.Wire.Table
import Mathlib.Data.List.Forall2

/-!
# Documents that are accepted

A document is accepted only as a whole: a list or an object that a decoder accepts ends where
it should, all its keys can be read, and every part that is wanted decodes. What is made of
the parts is made of the whole.
-/

set_option autoImplicit false

namespace BatchAuction.Wire

open Json

variable {α β σ : Type} {medium : Medium}

/-!
## Members
-/

/-- Members as they stand in an object whose keys can all be read. -/
def spelled (entries : List (String × Document)) : List (Readable String × Document) :=
  entries.map fun entry => (.ok entry.1, entry.2)

theorem spelled_injective : Function.Injective spelled :=
  List.map_injective_iff.mpr fun _ _ same =>
    Prod.ext (Except.ok.inj (Prod.mk.inj same).1) (Prod.mk.inj same).2

/-- The members of an object without damage. -/
def Members.whole (entries : List (String × Document)) : Members := ⟨entries, none, none⟩

theorem Members.of_spelled (entries : List (String × Document)) :
    Members.of .closed (spelled entries) = .whole entries := by
  induction entries with
  | nil => rfl
  | cons entry rest ih =>
      rw [spelled, List.map_cons, Members.of, ← spelled, ih]
      rfl

/-- Without damage after them all members are there. -/
theorem Members.eq_spelled_of_tail {ending : ObjectEnd}
    {members : List (Readable String × Document)} (sound : (Members.of ending members).tail = none) :
    ending = .closed ∧ ∃ entries, members = spelled entries := by
  induction members with
  | nil => exact ⟨ObjectEnd.closed_of_endError? sound, [], rfl⟩
  | cons member rest ih =>
      obtain ⟨key, document⟩ := member
      cases key with
      | error fault => cases sound
      | ok key =>
          obtain ⟨closed, entries, rfl⟩ := ih sound
          exact ⟨closed, (key, document) :: entries, rfl⟩

/-- Where everything in a list is related to something, there is a list of that. -/
theorem exists_forall₂ {γ δ : Type} {related : γ → δ → Prop} {left : List γ}
    (each : ∀ item ∈ left, ∃ other, related item other) :
    ∃ right, List.Forall₂ related left right := by
  induction left with
  | nil => exact ⟨[], .nil⟩
  | cons item rest ih =>
      obtain ⟨⟨other, both⟩, restEach⟩ := List.forall_mem_cons.mp each
      obtain ⟨others, restBoth⟩ := ih restEach
      exact ⟨other :: others, .cons both restBoth⟩

theorem mismatch_ne_ok {expected : Expected} {document : Document} {value : α} :
    mismatch expected document ≠ .ok value := by
  unfold mismatch
  split <;> nofun

theorem decodeText_eq_ok_iff {decoder : Decoder α} {bytes : List UInt8} {value : α} :
    decodeText decoder bytes = .ok value ↔
      (read bytes).trailing = false ∧ decoder .text (read bytes).document = .ok value := by
  unfold decodeText
  dsimp only
  cases decoder .text (read bytes).document with
  | error error => exact iff_of_false nofun nofun
  | ok found =>
      cases (read bytes).trailing with
      | true => exact iff_of_false nofun nofun
      | false => exact ⟨fun same => ⟨rfl, same⟩, fun same => same.2⟩

theorem refused_or_not {decoder : Decoder α} {bytes : List UInt8} {bad : Prop}
    (sound : ∀ found, decodeText decoder bytes = .ok found → ¬ bad) :
    (∃ error, decodeText decoder bytes = .error error) ∨ ¬ bad := by
  cases read : decodeText decoder bytes with
  | error error => exact .inl ⟨error, rfl⟩
  | ok found => exact .inr (sound found read)

/-!
## Lists
-/

theorem itemsFrom_eq_ok_iff {decoder : Decoder α} {ending : ListEnd} {index : Nat}
    {items : List Document} {values : List α} :
    decoder.itemsFrom medium ending index items = .ok values ↔
      ending = .closed ∧
        List.Forall₂ (fun item value => decoder medium item = .ok value) items values := by
  constructor
  · intro accepted
    induction items generalizing index values with
    | nil =>
        rw [Decoder.itemsFrom] at accepted
        cases sound : ending.read? with
        | some fault => rw [sound] at accepted; cases accepted
        | none =>
            rw [sound] at accepted
            cases accepted
            exact ⟨ListEnd.closed_of_read? sound, .nil⟩
    | cons item rest ih =>
        rw [Decoder.itemsFrom] at accepted
        obtain ⟨value, read, accepted⟩ := ok_of_bind_ok accepted
        obtain ⟨others, restRead, accepted⟩ := ok_of_bind_ok accepted
        cases accepted
        obtain ⟨closed, each⟩ := ih restRead
        exact ⟨closed, .cons (ok_of_mapError_ok read) each⟩
  · rintro ⟨rfl, each⟩
    induction each generalizing index with
    | nil => rfl
    | cons read _ ih => rw [Decoder.itemsFrom, read, Except.mapError, ih]; rfl

theorem list_eq_ok_iff {decoder : Decoder α} {document : Document} {values : List α} :
    decoder.list medium document = .ok values ↔
      ∃ items, document = .list items .closed false ∧
        List.Forall₂ (fun item value => decoder medium item = .ok value) items values := by
  constructor
  · intro accepted
    cases document with
    | list items ending tooDeep =>
        cases tooDeep with
        | true => cases accepted
        | false =>
            obtain ⟨rfl, each⟩ := itemsFrom_eq_ok_iff.mp accepted
            exact ⟨items, rfl, each⟩
    | number | text => exact absurd accepted mismatch_ne_ok
    | _ => cases accepted
  · rintro ⟨items, rfl, each⟩
    exact itemsFrom_eq_ok_iff.mpr ⟨rfl, each⟩

/-- Whether a list is accepted is a matter of its items by themselves. -/
theorem exists_list_eq_ok_iff {decoder : Decoder α} {document : Document} :
    (∃ values, decoder.list medium document = .ok values) ↔
      ∃ items, document = .list items .closed false ∧
        ∀ item ∈ items, ∃ value, decoder medium item = .ok value := by
  simp only [list_eq_ok_iff]
  constructor
  · rintro ⟨values, items, rfl, each⟩
    refine ⟨items, rfl, fun item among => ?_⟩
    obtain ⟨value, _, read⟩ := exists_of_mem_forall₂ each.flip among
    exact ⟨value, read⟩
  · rintro ⟨items, rfl, each⟩
    obtain ⟨values, each⟩ := exists_forall₂ each
    exact ⟨values, items, rfl, each⟩

/-!
## Records
-/

namespace Fields

theorem seq_fromMembers (first : Fields σ (α → β)) (second : Fields σ α) (members : Members) :
    (first <*> second).fromMembers medium members =
      PlacedResult.both (fun f x => f x) (first.fromMembers medium members)
        (second.fromMembers medium members) := rfl

theorem seq_fromMembers_eq_ok_iff {first : Fields σ (α → β)} {second : Fields σ α}
    {members : Members} {result : β} :
    (first <*> second).fromMembers medium members = .ok result ↔
      ∃ f, first.fromMembers medium members = .ok f ∧
        ∃ x, second.fromMembers medium members = .ok x ∧ f x = result := by
  rw [seq_fromMembers]
  cases first.fromMembers medium members <;> cases second.fromMembers medium members <;>
    simp [PlacedResult.both]

theorem seq_fromItems_eq_ok_iff {first : Fields σ (α → β)} {second : Fields σ α}
    {missing : Nat → Cause} {ending : ListEnd} {index : Nat} {items rest : List Document}
    {result : β} :
    (first <*> second).fromItems medium missing ending index items = .ok (result, rest) ↔
      ∃ f others, first.fromItems medium missing ending index items = .ok (f, others) ∧
        ∃ x, second.fromItems medium missing ending (index + first.names.length) others =
          .ok (x, rest) ∧ f x = result := by
  have read : (first <*> second).fromItems medium missing ending index items = (do
      let taken ← first.fromItems medium missing ending index items
      let last ← second.fromItems medium missing ending (index + first.names.length) taken.2
      return (taken.1 last.1, last.2)) := rfl
  rw [read]
  constructor
  · intro accepted
    obtain ⟨⟨f, others⟩, taken, accepted⟩ := ok_of_bind_ok accepted
    obtain ⟨⟨x, last⟩, item, accepted⟩ := ok_of_bind_ok accepted
    cases accepted
    exact ⟨f, others, taken, x, item, rfl⟩
  · rintro ⟨f, others, taken, x, item, rfl⟩
    rw [taken]
    change (second.fromItems medium missing ending (index + first.names.length) others >>= _) = _
    rw [item]
    rfl

theorem names_seq_member (fields : Fields σ (α → β)) (name : String) (decode : Decoder α)
    (absent : Option α) (write : σ → List (String × Json)) :
    (fields <*> member name decode absent write).names = fields.names ++ [name] := rfl

/-- Where no name is repeated, the name of the last field is not among the others. -/
theorem nodup_names_seq_member {fields : Fields σ (α → β)} {name : String} {decode : Decoder α}
    {absent : Option α} {write : σ → List (String × Json)}
    (distinct : (fields <*> member name decode absent write).names.Nodup) :
    fields.names.Nodup ∧ name ∉ fields.names := by
  obtain ⟨others, _, apart⟩ := List.nodup_append.mp distinct
  exact ⟨others, fun among => apart name among name List.mem_cons_self rfl⟩

/-- An object is accepted if its fields are, and nothing is damaged. -/
theorem readObject_eq_ok_iff {fields : Fields σ α} {members : Members} {record : α} :
    fields.readObject medium members = .ok record ↔
      members.tail = none ∧ strayError? fields.names 0 members.entries = none ∧
        fields.fromMembers medium members = .ok record := by
  unfold readObject
  cases members.tail <;> cases strayError? fields.names 0 members.entries <;>
    cases fields.fromMembers medium members <;> simp [unlessEarlier, Except.mapError]

theorem decoder_object_eq_ok_iff {fields : Fields σ α} {owner : Owner}
    {members : List (Readable String × Document)} {ending : ObjectEnd} {tooDeep : Bool}
    {record : α} :
    fields.decoder owner medium (.object members ending tooDeep) = .ok record ↔
      ∃ entries, members = spelled entries ∧ ending = .closed ∧ tooDeep = false ∧
        strayError? fields.names 0 entries = none ∧
        fields.fromMembers medium (.whole entries) = .ok record := by
  constructor
  · intro accepted
    cases tooDeep with
    | true => cases accepted
    | false =>
        obtain ⟨sound, strays, read⟩ := readObject_eq_ok_iff.mp accepted
        obtain ⟨rfl, entries, rfl⟩ := Members.eq_spelled_of_tail sound
        rw [Members.of_spelled] at strays read
        exact ⟨entries, rfl, rfl, rfl, strays, read⟩
  · rintro ⟨entries, rfl, rfl, rfl, strays, read⟩
    have whole : fields.decoder owner medium (.object (spelled entries) .closed false) =
        fields.readObject medium (Members.of .closed (spelled entries)) := rfl
    rw [whole, Members.of_spelled]
    exact readObject_eq_ok_iff.mpr ⟨rfl, strays, read⟩

end Fields

/-!
## Tables
-/

/-- The key of a member is a text of the address of the entry, and its value decodes to the
value of the entry. -/
def EntryOf (decode : Decoder α) (medium : Medium) (member : String × Document)
    (entry : Address × α) : Prop :=
  Codec.parseAddress member.1 = .ok entry.1 ∧ decode medium member.2 = .ok entry.2

/-- A table is read just if every member makes an entry and the addresses are accepted. -/
theorem readTable_eq_ok_iff {repetition : Repetition} {decode : Decoder α} {tail : Option Error}
    {table result : AddressMap α} {members : List (String × Document)} :
    readTable repetition decode medium tail table members = .ok result ↔
      tail = none ∧ ∃ entries, List.Forall₂ (EntryOf decode medium) members entries ∧
        repetition.Accepts ((entries ++ table.entries).map (·.1)) ∧
        table.insertAll entries = result := by
  induction members generalizing table with
  | nil =>
      have accepted : repetition.Accepts (table.entries.map (·.1)) := .inr table.nodup_keys
      cases tail <;> simp [readTable, accepted, AddressMap.insertAll]
  | cons member rest ih =>
      rw [readTable]
      constructor
      · intro read
        obtain ⟨address, parsed, read⟩ := ok_of_bind_ok read
        obtain ⟨value, decoded, read⟩ := ok_of_bind_ok read
        split at read
        · cases read
        · rename_i fresh
          obtain ⟨sound, entries, each, accepted, rfl⟩ := ih.mp read
          refine ⟨sound, (address, value) :: entries, .cons ⟨?_, ?_⟩ each, ?_, rfl⟩
          · exact ok_of_mapError_ok parsed
          · exact ok_of_mapError_ok decoded
          · exact (accepts_cons_iff repetition table (address, value) entries).mpr
              ⟨fresh, accepted⟩
      · rintro ⟨sound, entries, each, accepted, rfl⟩
        cases each with
        | @cons _ entry _ entries first each =>
            obtain ⟨parsed, decoded⟩ := first
            obtain ⟨fresh, accepted⟩ :=
              (accepts_cons_iff repetition table entry entries).mp accepted
            rw [parsed, decoded]
            simp only [Except.mapError, bind, Except.bind]
            rw [if_neg fresh]
            exact ih.mpr ⟨sound, entries, each, accepted, rfl⟩

/-- The table has one entry for each member of the object: the decoded value at the address
that the key is a text of. -/
def TableOf (decode : Decoder α) (medium : Medium) (document : Document)
    (table : AddressMap α) : Prop :=
  ∃ members entries, document = .object (spelled members) .closed false ∧
    List.Forall₂ (EntryOf decode medium) members entries ∧ (entries.map (·.1)).Nodup ∧
      table.entries.Perm entries

theorem tail_eq_none_of_tableTail {members : Members} (sound : tableTail members = none) :
    members.tail = none := by
  unfold tableTail at sound
  split at sound
  · exact sound
  · split at sound
    · exact sound
    · cases sound

/-- A table that refuses repeated addresses is read just if no entry is lost. -/
theorem table_refused_eq_ok_iff {codec : Codec α} {document : Document}
    {table : AddressMap α} :
    (Codec.table .refused codec).decode medium document = .ok table ↔
      TableOf codec.decode medium document table := by
  constructor
  · intro read
    cases document with
    | object members ending tooDeep =>
        cases tooDeep with
        | true => cases read
        | false =>
            obtain ⟨sound, entries, each, accepted, rfl⟩ := readTable_eq_ok_iff.mp read
            obtain ⟨rfl, members, rfl⟩ :=
              Members.eq_spelled_of_tail (tail_eq_none_of_tableTail sound)
            rw [Members.of_spelled] at each
            have distinct : (entries.map (·.1)).Nodup := by
              simpa [AddressMap.empty] using accepted.resolve_left (by decide)
            exact ⟨members, entries, rfl, each, distinct,
              AddressMap.entries_ofList_perm distinct⟩
    | number | text => exact absurd read mismatch_ne_ok
    | _ => cases read
  · rintro ⟨members, entries, rfl, each, distinct, order⟩
    have whole : (Codec.table .refused codec).decode medium
        (.object (spelled members) .closed false) =
      readTable .refused codec.decode medium (tableTail (.of .closed (spelled members)))
        .empty (Members.of .closed (spelled members)).entries := rfl
    rw [whole, Members.of_spelled, readTable_eq_ok_iff]
    have accepted : Repetition.refused.Accepts
        ((entries ++ (AddressMap.empty : AddressMap α).entries).map (·.1)) :=
      .inr (by simpa [AddressMap.empty] using distinct)
    have made : AddressMap.empty.insertAll entries = table :=
      AddressMap.eq_of_entries_perm ((AddressMap.entries_ofList_perm distinct).trans order.symm)
    exact ⟨rfl, entries, each, accepted, made⟩

end BatchAuction.Wire
