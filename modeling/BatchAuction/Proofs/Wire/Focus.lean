import BatchAuction.Proofs.Wire.Replacement
import BatchAuction.Proofs.Wire.TokenTables

/-!
# One part of an accepted document

Where a document is accepted and one part of it gives way to another, the outcome turns on
that part alone: the whole is accepted again if the reader of the part accepts it, and
refused for the reason the reader gives otherwise, with the path of the part in front.
-/

set_option autoImplicit false

namespace BatchAuction.Wire

open Json

variable {α β γ σ : Type} {medium : Medium} {path rest : List Segment} {old new : Document}

/-- A refusal seen from outside of the containers along a path. -/
def Error.beneath (path : List Segment) (error : Error) : Error := ⟨path ++ error.path, error.cause⟩

/-- The outcome for a whole turns on the part that the reader meets. -/
structure Hinges (reader : Decoder β) (medium : Medium) (path : List Segment)
    (old new : Document) (outcome : Except Error α) : Prop where
  inside : ∃ part, reader medium old = .ok part
  refuses : ∀ error, reader medium new = .error error → outcome = .error (error.beneath path)
  accepts : ∀ part, reader medium new = .ok part → ∃ result, outcome = .ok result

/-- What the decoder makes of a whole that it accepted before an exchange turns on the part
at the end of the path. -/
def Focuses (decoder : Decoder α) (medium : Medium) (path : List Segment)
    (reader : Decoder β) : Prop :=
  ∀ ⦃old new whole other result⦄, Exchanged old new path whole other →
    decoder medium whole = .ok result → Hinges reader medium path old new (decoder medium other)

theorem Focuses.trans {decoder : Decoder α} {middle : Decoder γ} {reader : Decoder β}
    (outer : Focuses decoder medium path middle) (inner : Focuses middle medium rest reader) :
    Focuses decoder medium (path ++ rest) reader := by
  intro old new whole other result exchanged accepted
  obtain ⟨part, changed, outside, inside⟩ := exchanged.split
  have whole := outer outside accepted
  obtain ⟨found, read⟩ := whole.inside
  have within := inner inside read
  refine ⟨within.inside, fun error refused => ?_, fun value accepted => ?_⟩
  · rw [whole.refuses _ (within.refuses error refused)]
    simp [Error.beneath]
  · obtain ⟨result, read⟩ := within.accepts value accepted
    exact whole.accepts result read

theorem Hinges.map {reader : Decoder β} {outcome : Except Error α}
    (hinges : Hinges reader medium path old new outcome) (change : α → γ) :
    Hinges reader medium path old new (outcome.map change) where
  inside := hinges.inside
  refuses error refused := by rw [hinges.refuses error refused]; rfl
  accepts part accepted := by
    obtain ⟨result, same⟩ := hinges.accepts part accepted
    exact ⟨change result, by rw [same]; rfl⟩

/-!
## Lists
-/

theorem itemsFrom_of_refused {decoder : Decoder α} {ending : ListEnd} {index : Nat}
    {before after : List Document} {item : Document} {error : Error}
    (fine : ∀ item ∈ before, ∃ value, decoder medium item = .ok value)
    (refused : decoder medium item = .error error) :
    decoder.itemsFrom medium ending index (before ++ item :: after) =
      .error (error.under (.element (index + before.length))) := by
  induction before generalizing index with
  | nil => rw [List.nil_append, Decoder.itemsFrom, refused]; rfl
  | cons head before ih =>
      obtain ⟨⟨value, read⟩, restFine⟩ := List.forall_mem_cons.mp fine
      rw [List.cons_append, Decoder.itemsFrom, read, ih restFine, List.length_cons, Nat.add_assoc,
        Nat.add_comm 1]
      rfl

theorem list_focuses (decoder : Decoder α) (index : Nat) :
    Focuses decoder.list medium [.element index] decoder := by
  intro old new whole other result exchanged accepted
  cases exchanged with
  | @element _ _ part changed before after ending tooDeep placed inner =>
      cases inner
      obtain ⟨items, same, each⟩ := exists_list_eq_ok_iff.mp ⟨result, accepted⟩
      obtain ⟨rfl, rfl, rfl⟩ := Document.list.inj same
      obtain ⟨beforeFine, ownFine, afterFine⟩ :
          (∀ item ∈ before, ∃ value, decoder medium item = .ok value) ∧
            (∃ value, decoder medium old = .ok value) ∧
            ∀ item ∈ after, ∃ value, decoder medium item = .ok value := by
        rwa [List.forall_mem_append, List.forall_mem_cons] at each
      refine ⟨ownFine, fun error refused => ?_, fun value read => ?_⟩
      · change decoder.itemsFrom medium .closed 0 (before ++ new :: after) = _
        rw [itemsFrom_of_refused beforeFine refused, Nat.zero_add, placed]
        rfl
      · refine exists_list_eq_ok_iff.mpr ⟨_, rfl, ?_⟩
        rw [List.forall_mem_append, List.forall_mem_cons]
        exact ⟨beforeFine, ⟨value, read⟩, afterFine⟩

/-!
## Tables
-/

/-- Members around one are members of an object whose keys can all be read. -/
theorem spelled_eq_append_cons {key : String} {part : Document}
    {before after : List (Readable String × Document)} {entries : List (String × Document)}
    (same : before ++ (.ok key, part) :: after = spelled entries) :
    ∃ front back, entries = front ++ (key, part) :: back ∧
      ∀ changed, before ++ (.ok key, changed) :: after = spelled (front ++ (key, changed) :: back) := by
  obtain ⟨front, others, rfl, rfl, others_eq⟩ := List.map_eq_append_iff.mp same.symm
  obtain ⟨entry, back, rfl, own, rfl⟩ := List.map_eq_cons_iff.mp others_eq
  obtain ⟨first, held⟩ := entry
  cases own
  exact ⟨front, back, rfl, fun changed => by simp [spelled]⟩

theorem readTable_of_refused {decode : Decoder α} {repetition : Repetition} {tail : Option Error}
    {table result : AddressMap α} {front back : List (String × Document)} {key : String}
    {error : Error}
    (read : readTable repetition decode medium tail table (front ++ (key, old) :: back) =
      .ok result)
    (refused : decode medium new = .error error) :
    readTable repetition decode medium tail table (front ++ (key, new) :: back) =
      .error (error.under (.member key)) := by
  induction front generalizing table with
  | nil =>
      rw [List.nil_append, readTable] at read ⊢
      obtain ⟨address, parsed, _⟩ := ok_of_bind_ok read
      rw [parsed, refused]
      rfl
  | cons member front ih =>
      rw [List.cons_append, readTable] at read ⊢
      obtain ⟨address, parsed, read⟩ := ok_of_bind_ok read
      obtain ⟨value, decoded, read⟩ := ok_of_bind_ok read
      rw [parsed, decoded]
      split at read
      · cases read
      · rename_i fresh
        simp only [bind, Except.bind]
        rw [if_neg fresh]
        exact ih read

theorem exists_table_refused_eq_ok_iff {codec : Codec α} {members : List (String × Document)} :
    (∃ table, (Codec.table .refused codec).decode medium
        (.object (spelled members) .closed false) = .ok table) ↔
      (∀ member ∈ members, (∃ address, Codec.parseAddress member.1 = .ok address) ∧
        ∃ value, codec.decode medium member.2 = .ok value) ∧
      (members.map (·.1)).Pairwise fun first second => ¬ SameAddress first second := by
  simp only [table_refused_eq_ok_iff, exists_tableOf_iff]

theorem table_decode_spelled (repetition : Repetition) (codec : Codec α)
    (members : List (String × Document)) :
    (Codec.table repetition codec).decode medium (.object (spelled members) .closed false) =
      readTable repetition codec.decode medium none .empty members := by
  change readTable repetition codec.decode medium (tableTail (.of .closed (spelled members)))
    .empty (Members.of .closed (spelled members)).entries = _
  rw [Members.of_spelled]
  rfl

theorem table_focuses (codec : Codec α) (key : String) :
    Focuses (Codec.table .refused codec).decode medium [.member key] codec.decode := by
  intro old new whole other result exchanged accepted
  cases exchanged with
  | @member _ _ part changed before after ending tooDeep inner =>
      cases inner
      obtain ⟨members, _, same, _⟩ := table_refused_eq_ok_iff.mp accepted
      obtain ⟨members_eq, rfl, rfl⟩ := Document.object.inj same
      obtain ⟨front, back, rfl, spelt⟩ := spelled_eq_append_cons members_eq
      rw [spelt] at accepted ⊢
      obtain ⟨each, apart⟩ := exists_table_refused_eq_ok_iff.mp ⟨result, accepted⟩
      rw [List.forall_mem_append, List.forall_mem_cons] at each
      obtain ⟨frontFine, ⟨parsed, ownFine⟩, backFine⟩ := each
      refine ⟨ownFine, fun error refused => ?_, fun value read => ?_⟩
      · rw [table_decode_spelled] at accepted ⊢
        exact readTable_of_refused accepted refused
      · rw [exists_table_refused_eq_ok_iff, List.forall_mem_append, List.forall_mem_cons]
        refine ⟨⟨frontFine, ⟨parsed, value, read⟩, backFine⟩, ?_⟩
        rw [List.map_append, List.map_cons] at apart ⊢
        exact apart

/-!
## Records
-/

/-- A member of a record, by its name and its decoder. -/
structure Part where
  Value : Type
  name : String
  decode : Decoder Value

namespace Fields

/-- The members with another document under a name do not concern fields of other names. -/
def Ignores (fields : Fields σ α) (name : String) : Prop :=
  ∀ medium front back old new, fields.fromMembers medium (.whole (front ++ (name, old) :: back)) =
    fields.fromMembers medium (.whole (front ++ (name, new) :: back))

/-- The fields read the given parts. What they make of members that they accepted before an
exchange turns on the exchanged part, and the others are ignored. -/
structure Consists (fields : Fields σ α) (parts : List Part) : Prop where
  names_eq : fields.names = parts.map (·.name)
  ignores : ∀ name, name ∉ fields.names → fields.Ignores name
  hinges : fields.names.Nodup → ∀ part ∈ parts, ∀ medium front back old new record,
    fields.fromMembers medium (.whole (front ++ (part.name, old) :: back)) = .ok record →
    Hinges part.decode medium [.member part.name] old new
      ((fields.fromMembers medium (.whole (front ++ (part.name, new) :: back))).mapError
        (·.error))

theorem occurrences_append (name : String) (place : Nat)
    (front back : List (String × Document)) :
    occurrences name place (front ++ back) =
      occurrences name place front ++ occurrences name (place + front.length) back := by
  induction front generalizing place with
  | nil => rfl
  | cons entry front ih =>
      rw [List.cons_append, occurrences, occurrences, ih, List.length_cons, Nat.add_assoc,
        Nat.add_comm 1]
      split <;> rfl

theorem member_ignores {name other : String} (apart : other ≠ name) (decode : Decoder α)
    (absent : Option α) (write : σ → List (String × Json)) :
    (member other decode absent write).Ignores name := by
  intro medium front back old new
  have same : ∀ document, occurrences other 0 (front ++ (name, document) :: back) =
      occurrences other 0 front ++ occurrences other (0 + front.length + 1) back := by
    intro document
    rw [occurrences_append, occurrences, if_neg (Ne.symm apart)]
  have length : ∀ document, (front ++ (name, document) :: back).length =
      (front ++ (name, old) :: back).length := by simp
  unfold member fromMember Members.whole
  simp only [same, length, repetition?]

theorem occurrences_of_once {name : String} {front back : List (String × Document)}
    (once : ((front ++ (name, old) :: back).map (·.1)).count name ≤ 1) (document : Document) :
    occurrences name 0 (front ++ (name, document) :: back) = [(front.length, document)] := by
  rw [List.map_append, List.map_cons, List.count_append, List.count_cons_self] at once
  have frontNone : occurrences name 0 front = [] := by
    rw [← List.length_eq_zero_iff, length_occurrences]
    omega
  have backNone : occurrences name (0 + front.length + 1) back = [] := by
    rw [← List.length_eq_zero_iff, length_occurrences]
    omega
  rw [occurrences_append, occurrences, if_pos rfl, frontNone, backNone, Nat.zero_add]
  rfl

/-- A member that is there once is decoded by itself. -/
theorem member_hinges {name : String} {decode : Decoder α} {absent : Option α}
    {write : σ → List (String × Json)} {front back : List (String × Document)} {value : α}
    (accepted : (member name decode absent write).fromMembers medium
      (.whole (front ++ (name, old) :: back)) = .ok value) :
    Hinges decode medium [.member name] old new
      (((member name decode absent write).fromMembers medium
        (.whole (front ++ (name, new) :: back))).mapError (·.error)) := by
  have once := (fromMember_eq_ok_iff.mp accepted).1
  have made : ∀ document, (member name decode absent write).fromMembers medium
      (.whole (front ++ (name, document) :: back)) =
        (decode medium document).mapError fun error =>
          ⟨front.length, error.under (.member name)⟩ := by
    intro document
    unfold member fromMember Members.whole
    dsimp only
    rw [occurrences_of_once once]
    dsimp only [repetition?]
    cases decode medium document <;> rfl
  rw [made] at accepted ⊢
  refine ⟨⟨value, ok_of_mapError_ok accepted⟩, fun error refused => ?_, fun part read => ?_⟩
  · rw [refused]
    rfl
  · exact ⟨part, by rw [read]; rfl⟩

theorem mapError_both_ok (outcome : PlacedResult (α → β)) (value : α) :
    (PlacedResult.both (fun f x => f x) outcome (.ok value)).mapError (·.error) =
      (outcome.mapError (·.error)).map (· value) := by
  cases outcome <;> rfl

theorem mapError_ok_both (make : α → β) (outcome : PlacedResult α) :
    (PlacedResult.both (fun f x => f x) (.ok make) outcome).mapError (·.error) =
      (outcome.mapError (·.error)).map make := by
  cases outcome <;> rfl

theorem consists_pure (value : α) : (pure value : Fields σ α).Consists [] where
  names_eq := rfl
  ignores _ _ _ _ _ _ _ := rfl
  hinges _ := nofun

theorem Consists.field {fields : Fields σ (α → β)} {parts : List Part}
    (consists : fields.Consists parts) {name : String} {decode : Decoder α} {absent : Option α}
    {write : σ → List (String × Json)} :
    (fields <*> member name decode absent write).Consists (parts ++ [⟨α, name, decode⟩]) where
  names_eq := by
    rw [names_seq_member, consists.names_eq, List.map_append]
    rfl
  ignores other foreign := by
    rw [names_seq_member, List.mem_append, List.mem_singleton, not_or] at foreign
    obtain ⟨others, apart⟩ := foreign
    intro medium front back old new
    rw [seq_fromMembers, seq_fromMembers, consists.ignores other others medium front back old new,
      member_ignores (Ne.symm apart) decode absent write medium front back old new]
  hinges := by
    intro distinct part among medium front back old new record accepted
    obtain ⟨othersDistinct, fresh⟩ := nodup_names_seq_member distinct
    obtain ⟨make, madeOthers, value, made, _⟩ := seq_fromMembers_eq_ok_iff.mp accepted
    rw [seq_fromMembers]
    -- Names differ, so either the last field or all the others do not see the exchange.
    rcases List.mem_append.mp among with earlier | last
    · have different : name ≠ part.name := by
        rintro rfl
        exact fresh (consists.names_eq ▸ List.mem_map_of_mem earlier)
      have kept := member_ignores different decode absent write medium front back old new
      rw [← kept, made, mapError_both_ok]
      exact (consists.hinges othersDistinct part earlier medium front back old new make madeOthers).map _
    · obtain rfl := List.mem_singleton.mp last
      have kept := consists.ignores name fresh medium front back old new
      rw [← kept, madeOthers, mapError_ok_both]
      exact (member_hinges made).map _

theorem readObject_whole {fields : Fields σ α} {entries : List (String × Document)}
    (strays : strayError? fields.names 0 entries = none) :
    fields.readObject medium (.whole entries) =
      (fields.fromMembers medium (.whole entries)).mapError (·.error) := by
  unfold readObject
  change Except.mapError _ (unlessEarlier (unlessEarlier _ (strayError? fields.names 0 entries))
    none) = _
  rw [strays]
  rfl

/-- An object that was accepted turns on each of its parts. -/
theorem Consists.focuses {fields : Fields σ α} {parts : List Part}
    (consists : fields.Consists parts) (distinct : fields.names.Nodup) (owner : Owner)
    {part : Part} (among : part ∈ parts) :
    Focuses (fields.decoder owner) medium [.member part.name] part.decode := by
  intro old new whole other result exchanged accepted
  cases exchanged with
  | @member _ _ own changed before after ending tooDeep inner =>
      cases inner
      obtain ⟨entries, members_eq, rfl, rfl, strays, read⟩ := decoder_object_eq_ok_iff.mp accepted
      obtain ⟨front, back, rfl, spelt⟩ := spelled_eq_append_cons members_eq
      have known : part.name ∈ fields.names := by
        rw [consists.names_eq]
        exact List.mem_map_of_mem among
      have strays : strayError? fields.names 0 (front ++ (part.name, new) :: back) = none := by
        rw [strayError?_eq_none_iff, List.forall_mem_append, List.forall_mem_cons] at strays ⊢
        exact ⟨strays.1, fun foreign => absurd known foreign, strays.2.2⟩
      have decoded : fields.decoder owner medium
          (.object (spelled (front ++ (part.name, new) :: back)) .closed false) =
        fields.readObject medium (.of .closed (spelled (front ++ (part.name, new) :: back))) := rfl
      rw [spelt, decoded, Members.of_spelled, readObject_whole strays]
      exact consists.hinges distinct part among medium front back old new result read

end Fields

end BatchAuction.Wire
