import BatchAuction.Proofs.Json.Spelling
import BatchAuction.Wire.Decoder

/-!
# Values as documents

A value held in memory is a document without damage, and reading such a document gives
the value again. Bytes spell a value if the reader makes its document of them and finds
nothing after it; what a decoder makes of such bytes is what it makes of the document.
-/

set_option autoImplicit false

namespace BatchAuction.Json

mutual

/-- Who passes over a value meets no damage. -/
theorem skip?_toDocument : ∀ value : Json, value.toDocument.skip? = none
  | .null | .boolean _ | .number _ | .text _ => rfl
  | .list items => by
      rw [toDocument, Document.skip?, skipItems?_itemDocuments items]
      rfl
  | .object members => by
      rw [toDocument, Document.skip?, skipMembers?_memberDocuments members]
      rfl

theorem skipItems?_itemDocuments : ∀ items : List Json,
    Document.skipItems? (itemDocuments items) = none
  | [] => rfl
  | item :: rest => by
      rw [itemDocuments, Document.skipItems?, skip?_toDocument item,
        skipItems?_itemDocuments rest]
      rfl

theorem skipMembers?_memberDocuments : ∀ members : List (String × Json),
    Document.skipMembers? (memberDocuments members) = none
  | [] => rfl
  | (key, value) :: rest => by
      rw [memberDocuments, Document.skipMembers?, skip?_toDocument value,
        skipMembers?_memberDocuments rest]
      rfl

end

end BatchAuction.Json

namespace BatchAuction.Wire

open Json

/-- The members of an object held in memory. -/
def Members.held (members : List (String × Json)) : Members :=
  ⟨members.map fun member => (member.1, member.2.toDocument), none, none⟩

theorem Members.of_memberDocuments (members : List (String × Json)) :
    Members.of .closed (memberDocuments members) = .held members := by
  induction members with
  | nil => rfl
  | cons head rest ih =>
      rw [memberDocuments, Members.of, ih]
      rfl

mutual

/-- A value held in memory is read as it is. -/
theorem readValue_toDocument : ∀ value : Json, readValue value.toDocument = .ok value
  | .null | .boolean _ | .number _ | .text _ => rfl
  | .list items => by
      rw [toDocument, readValue, readItems_itemDocuments 0 items]
      rfl
  | .object members => by
      rw [toDocument, readValue, readMembers_memberDocuments members]
      rfl

theorem readItems_itemDocuments : ∀ (index : Nat) (items : List Json),
    readItems .closed index (itemDocuments items) = .ok items
  | _, [] => rfl
  | index, item :: rest => by
      rw [itemDocuments, readItems, readValue_toDocument item,
        readItems_itemDocuments (index + 1) rest]
      rfl

theorem readMembers_memberDocuments : ∀ members : List (String × Json),
    readMembers .closed (memberDocuments members) = .ok members
  | [] => rfl
  | (key, value) :: rest => by
      rw [memberDocuments, readMembers, readValue_toDocument value,
        readMembers_memberDocuments rest]
      rfl

end

theorem ok_of_bind_ok {α β : Type} {read : Except Error α} {next : α → Except Error β}
    {result : β} (ok : (read >>= next) = .ok result) :
    ∃ value, read = .ok value ∧ next value = .ok result := by
  cases read with
  | error error => cases ok
  | ok value => exact ⟨value, rfl, ok⟩

theorem ok_of_mapError_ok {α ε δ : Type} {read : Except ε α} {change : ε → δ}
    {result : α} (ok : read.mapError change = .ok result) : read = .ok result := by
  cases read with
  | error error => cases ok
  | ok value => exact congrArg Except.ok (Except.ok.inj ok)

theorem ok_of_map_ok {α β : Type} {read : Except Error α} {change : α → β} {result : β}
    (ok : read.map change = .ok result) : ∃ value, read = .ok value ∧ change value = result := by
  cases read with
  | error error => cases ok
  | ok value => exact ⟨value, rfl, Except.ok.inj ok⟩

theorem ListEnd.closed_of_read? {ending : ListEnd} (sound : ending.read? = none) :
    ending = .closed := by
  cases ending <;> first | rfl | cases sound

theorem ObjectEnd.closed_of_endError? {ending : ObjectEnd}
    (sound : endError? ending = none) : ending = .closed := by
  rw [endError?, Option.map_eq_none_iff] at sound
  cases ending with
  | closed => rfl
  | missingColon key atEnd => cases key <;> cases sound
  | _ => cases sound

mutual

/-- Only the document of a value is read as the value. -/
theorem eq_toDocument_of_readValue : ∀ {document : Document} {value : Json},
    readValue document = .ok value → document = value.toDocument
  | .null, _, reads => by cases reads; rfl
  | .boolean _, _, reads => by cases reads; rfl
  | .number (.ok _), _, reads => by cases reads; rfl
  | .text (.ok _), _, reads => by cases reads; rfl
  | .number (.error _), _, reads => by cases reads
  | .text (.error _), _, reads => by cases reads
  | .absent, _, reads => by cases reads
  | .leadingComma _, _, reads => by cases reads
  | .brokenText _ _, _, reads => by cases reads
  | .broken _ _, _, reads => by cases reads
  | .list items ending tooDeep, _, reads => by
      rw [readValue] at reads
      cases tooDeep with
      | true => cases reads
      | false =>
          obtain ⟨values, readItems, rfl⟩ := ok_of_map_ok reads
          obtain ⟨rfl, rfl⟩ := eq_itemDocuments_of_readItems readItems
          rfl
  | .object members ending tooDeep, _, reads => by
      rw [readValue] at reads
      cases tooDeep with
      | true => cases reads
      | false =>
          obtain ⟨values, readMembers, rfl⟩ := ok_of_map_ok reads
          obtain ⟨rfl, rfl⟩ := eq_memberDocuments_of_readMembers readMembers
          rfl

theorem eq_itemDocuments_of_readItems : ∀ {items : List Document} {ending : ListEnd}
    {index : Nat} {values : List Json}, readItems ending index items = .ok values →
    ending = .closed ∧ items = itemDocuments values
  | [], ending, index, values, reads => by
      rw [readItems] at reads
      cases sound : ending.read? with
      | some fault => rw [sound] at reads; cases reads
      | none =>
          rw [sound] at reads
          cases reads
          exact ⟨ListEnd.closed_of_read? sound, rfl⟩
  | item :: rest, ending, index, values, reads => by
      rw [readItems] at reads
      obtain ⟨value, readItem, reads⟩ := ok_of_bind_ok reads
      obtain ⟨others, readRest, reads⟩ := ok_of_bind_ok reads
      cases reads
      obtain ⟨closed, rest_eq⟩ := eq_itemDocuments_of_readItems readRest
      have item_eq := eq_toDocument_of_readValue (ok_of_mapError_ok readItem)
      exact ⟨closed, by rw [itemDocuments, item_eq, rest_eq]⟩

theorem eq_memberDocuments_of_readMembers : ∀ {members : List (Readable String × Document)}
    {ending : ObjectEnd} {values : List (String × Json)},
    readMembers ending members = .ok values →
    ending = .closed ∧ members = memberDocuments values
  | [], ending, values, reads => by
      rw [readMembers] at reads
      cases sound : endError? ending with
      | some error => rw [sound] at reads; cases reads
      | none =>
          rw [sound] at reads
          cases reads
          exact ⟨ObjectEnd.closed_of_endError? sound, rfl⟩
  | (.error _, _) :: _, _, _, reads => by rw [readMembers] at reads; cases reads
  | (.ok key, document) :: rest, ending, values, reads => by
      rw [readMembers] at reads
      obtain ⟨value, readMember, reads⟩ := ok_of_bind_ok reads
      obtain ⟨others, readRest, reads⟩ := ok_of_bind_ok reads
      cases reads
      obtain ⟨closed, rest_eq⟩ := eq_memberDocuments_of_readMembers readRest
      have value_eq := eq_toDocument_of_readValue (ok_of_mapError_ok readMember)
      exact ⟨closed, by rw [memberDocuments, value_eq, rest_eq]⟩

end

variable {α : Type} {bytes : List UInt8} {written other : Json}

theorem toDocument_inj (same : written.toDocument = other.toDocument) : written = other := by
  have reads := readValue_toDocument written
  rw [same, readValue_toDocument other] at reads
  exact (Except.ok.inj reads).symm

/-- Bytes spell one value at most. -/
theorem spells_unique (spelled : Spells bytes written) (otherSpelled : Spells bytes other) :
    written = other :=
  toDocument_inj (congrArg Reading.document (spelled.symm.trans otherSpelled))

theorem decodeText_of_read (decoder : Decoder α) {document : Document}
    (made : Json.read bytes = ⟨document, false⟩) :
    decodeText decoder bytes = decoder .text document := by
  unfold decodeText
  rw [made]
  dsimp only
  cases decoder .text document <;> rfl

theorem decodeText_of_spells (decoder : Decoder α) (spelled : Spells bytes written) :
    decodeText decoder bytes = decoder .text written.toDocument :=
  decodeText_of_read decoder spelled

/-- Bytes are accepted as a plain value just if they spell one. It is handed out with its
members sorted. -/
theorem decodeText_anyValue_iff {value : Json} :
    decodeText anyValue bytes = .ok value ↔
      ∃ written, Spells bytes written ∧ written.sorted = value := by
  constructor
  · intro accepted
    obtain ⟨read, readOk, accepted⟩ := ok_of_bind_ok accepted
    obtain ⟨written, readWritten, rfl⟩ := ok_of_map_ok readOk
    have document_eq := eq_toDocument_of_readValue readWritten
    cases trailing : (Json.read bytes).trailing with
    | true => rw [trailing] at accepted; cases accepted
    | false =>
        rw [trailing] at accepted
        cases accepted
        refine ⟨written, ?_, rfl⟩
        rw [Spells, ← document_eq, ← trailing]
  · rintro ⟨written, spelled, rfl⟩
    rw [decodeText_of_spells anyValue spelled, anyValue, readValue_toDocument]
    rfl

end BatchAuction.Wire
