import BatchAuction.Proofs.Wire.Agreement
import BatchAuction.Proofs.Wire.Buffering
import BatchAuction.Proofs.Wire.Records

/-!
# No damage in what is accepted

A decoder that accepts a text has looked at all of its document: each part is decoded,
buffered or passed over, and damage in any of them is an error. Each way of building a
decoder keeps this, so every format has it.
-/

set_option autoImplicit false

namespace BatchAuction.Wire

open Json

variable {α β σ : Type}

/-- What the decoder accepts in a text is without damage. -/
class Decoder.RefusesDamage (decoder : Decoder α) : Prop where
  skip?_eq_none {document : Document} {value : α} :
    decoder .text document = .ok value → document.skip? = none

/-- What the fields take is without damage. -/
class Fields.RefusesDamage (fields : Fields σ α) : Prop where
  ofMembers {entries : List (String × Document)} {value : α} :
    fields.fromMembers .text (.whole entries) = .ok value →
      ∀ entry ∈ entries, entry.1 ∈ fields.names → entry.2.skip? = none
  ofItems {missing : Nat → Cause} {ending : ListEnd} {index : Nat} {items rest : List Document}
    {value : α} : fields.fromItems .text missing ending index items = .ok (value, rest) →
      ∃ taken, items = taken ++ rest ∧ ∀ item ∈ taken, item.skip? = none

/-!
## Containers
-/

theorem skipItems?_eq_none_iff {items : List Document} :
    Document.skipItems? items = none ↔ ∀ item ∈ items, item.skip? = none := by
  induction items with
  | nil => simp [Document.skipItems?]
  | cons item rest ih => simp [Document.skipItems?, ih]

theorem skipMembers?_eq_none_iff {entries : List (String × Document)} :
    Document.skipMembers? (spelled entries) = none ↔ ∀ entry ∈ entries, entry.2.skip? = none := by
  induction entries with
  | nil => simp [spelled, Document.skipMembers?]
  | cons entry rest ih =>
      rw [spelled] at ih
      simp [spelled, Document.skipMembers?, ih]

theorem skip?_list {items : List Document} {tooDeep : Bool}
    (each : ∀ item ∈ items, item.skip? = none) :
    (Document.list items .closed tooDeep).skip? = none := by
  rw [Document.skip?, skipItems?_eq_none_iff.mpr each]
  rfl

theorem skip?_object {entries : List (String × Document)} {tooDeep : Bool}
    (each : ∀ entry ∈ entries, entry.2.skip? = none) :
    (Document.object (spelled entries) .closed tooDeep).skip? = none := by
  rw [Document.skip?, skipMembers?_eq_none_iff.mpr each]
  rfl

/-- Held members are members of a value. -/
theorem skip?_of_mem_heldEntries {members : List (String × Json)} {entry : String × Document}
    (among : entry ∈ heldEntries members) : entry.2.skip? = none := by
  obtain ⟨member, _, rfl⟩ := List.mem_map.mp among
  exact skip?_toDocument member.2

namespace Decoder

/-!
## Plain decoders
-/

instance (expected : Expected) : (textAs expected).RefusesDamage where
  skip?_eq_none {document} _ accepted := by
    cases document with
    | number | text => rfl
    | _ => cases accepted

instance : text.RefusesDamage := inferInstanceAs (textAs .text).RefusesDamage

instance : boolean.RefusesDamage where
  skip?_eq_none {document} _ accepted := by
    cases document with
    | boolean | number | text => rfl
    | _ => cases accepted

instance (least greatest : Int) (expected : Expected) :
    (integer least greatest expected).RefusesDamage where
  skip?_eq_none {document} _ accepted := by
    cases document with
    | number | text => rfl
    | _ => cases accepted

instance : real.RefusesDamage where
  skip?_eq_none {document} _ accepted := by
    cases document with
    | number | text => rfl
    | _ => cases accepted

instance : Codec.readScaled.RefusesDamage where
  skip?_eq_none {document} _ accepted := by
    cases document with
    | number | text => rfl
    | _ => cases accepted

theorem eq_null_of_nothing {medium : Medium} {document : Document} {value : Unit}
    (accepted : nothing medium document = .ok value) : document = .null := by
  cases document with
  | null => rfl
  | number | text => exact absurd accepted mismatch_ne_ok
  | _ => cases accepted

/-- A name as a key stands alone in its object and has null for its value. -/
theorem eq_singleton_of_nameInText {entries : List (String × α)} {ending : ObjectEnd}
    {members : List (Readable String × Document)} {value : α}
    (accepted : nameInText entries ending members = .ok value) :
    ∃ name, members = [(.ok name, .null)] ∧ ending = .closed := by
  cases members with
  | nil =>
      rw [nameInText] at accepted
      unfold nameFault at accepted
      split at accepted
      all_goals first | cases accepted | obtain ⟨_, _, ⟨⟩⟩ := ok_of_bind_ok accepted
  | cons member rest =>
      obtain ⟨key, document⟩ := member
      cases key with
      | error fault => cases accepted
      | ok name =>
          obtain ⟨_, _, accepted⟩ := ok_of_bind_ok accepted
          obtain ⟨_, nothing, accepted⟩ := ok_of_bind_ok accepted
          cases eq_null_of_nothing (ok_of_mapError_ok nothing)
          split at accepted
          · exact ⟨name, rfl, rfl⟩
          · cases accepted
          · cases accepted

instance (entries : List (String × α)) : (oneOf entries).RefusesDamage where
  skip?_eq_none {document} _ accepted := by
    cases document with
    | null | boolean | number | text => rfl
    | object members ending tooDeep =>
        cases tooDeep with
        | true => cases accepted
        | false =>
            obtain ⟨name, rfl, rfl⟩ := eq_singleton_of_nameInText accepted
            rfl
    | _ => cases accepted

/-!
## Decoders of the same document
-/

variable {decoder : Decoder α}

instance [decoder.RefusesDamage] (change : α → β) : (decoder.map change).RefusesDamage where
  skip?_eq_none accepted := by
    obtain ⟨_, read, _⟩ := ok_of_map_ok accepted
    exact RefusesDamage.skip?_eq_none read

instance [decoder.RefusesDamage] (check : α → Except Cause β) :
    (decoder.refine check).RefusesDamage where
  skip?_eq_none accepted := by
    obtain ⟨_, read, _⟩ := ok_of_bind_ok accepted
    exact RefusesDamage.skip?_eq_none read

theorem ok_or_null_of_option {medium : Medium} {document : Document} {value : Option α}
    (accepted : decoder.option medium document = .ok value) :
    document = .null ∨ ∃ found, decoder medium document = .ok found := by
  cases document with
  | null => exact .inl rfl
  | _ =>
      obtain ⟨found, read, _⟩ := ok_of_map_ok accepted
      exact .inr ⟨found, read⟩

instance [decoder.RefusesDamage] : decoder.option.RefusesDamage where
  skip?_eq_none accepted := by
    rcases ok_or_null_of_option accepted with rfl | ⟨_, read⟩
    · rfl
    · exact RefusesDamage.skip?_eq_none read

/-!
## Buffered documents
-/

theorem skip?_of_readValue {document : Document} {value : Json}
    (read : readValue document = .ok value) : document.skip? = none := by
  rw [eq_toDocument_of_readValue read]
  exact skip?_toDocument value

instance (first second : Decoder α) : (either first second).RefusesDamage where
  skip?_eq_none accepted := by
    obtain ⟨_, read, _⟩ := ok_of_bind_ok accepted
    exact skip?_of_readValue read

instance (name : String) (alternatives : List (Decoder α)) :
    (firstOf name alternatives).RefusesDamage where
  skip?_eq_none accepted := by
    obtain ⟨_, read, _⟩ := ok_of_bind_ok accepted
    exact skip?_of_readValue read

theorem skip?_of_tag {variants : List (String × α)} {medium : Medium} {document : Document}
    {chosen : α} (accepted : tag variants medium document = .ok chosen) :
    document.skip? = none := by
  cases document with
  | number | text => rfl
  | _ => cases medium <;> cases accepted

/-- All members but the tag are buffered. -/
instance (name : String) (variants : List (String × Decoder α)) :
    (union name variants).RefusesDamage where
  skip?_eq_none accepted := by
    rcases isContainer_of_union_ok accepted with ⟨_, _, _, rfl⟩ | ⟨_, _, _, rfl⟩
    · obtain ⟨before, document, after, _, rfl, rfl, rfl, _, chosen, _⟩ :=
        union_object_eq_ok_iff.mp accepted
      refine skip?_object fun entry among => ?_
      rcases List.mem_append.mp among with among | among
      · exact skip?_of_mem_heldEntries among
      · rcases List.mem_cons.mp among with rfl | among
        · exact skip?_of_tag chosen
        · exact skip?_of_mem_heldEntries among
    · obtain ⟨document, others, _, rfl, rfl, rfl, chosen, _⟩ := union_list_eq_ok_iff.mp accepted
      refine skip?_list (List.forall_mem_cons.mpr ⟨skip?_of_tag chosen, ?_⟩)
      exact skipItems?_eq_none_iff.mp (skipItems?_itemDocuments others)

/-!
## Lists and tables
-/

instance [decoder.RefusesDamage] : decoder.list.RefusesDamage where
  skip?_eq_none accepted := by
    obtain ⟨_, rfl, each⟩ := list_eq_ok_iff.mp accepted
    refine skip?_list fun item among => ?_
    obtain ⟨_, _, read⟩ := exists_of_mem_forall₂ each.flip among
    exact RefusesDamage.skip?_eq_none read

instance (repetition : Repetition) (codec : Codec α) [codec.decode.RefusesDamage] :
    (Codec.table repetition codec).decode.RefusesDamage where
  skip?_eq_none {document} _ accepted := by
    cases document with
    | object members ending tooDeep =>
        cases tooDeep with
        | true => cases accepted
        | false =>
            obtain ⟨sound, _, each, _⟩ := readTable_eq_ok_iff.mp accepted
            obtain ⟨rfl, members, rfl⟩ :=
              Members.eq_spelled_of_tail (tail_eq_none_of_tableTail sound)
            rw [Members.of_spelled] at each
            refine skip?_object fun member among => ?_
            obtain ⟨_, _, _, read⟩ := exists_of_mem_forall₂ each.flip among
            exact RefusesDamage.skip?_eq_none read
    | number | text => rfl
    | _ => cases accepted

end Decoder

/-!
## Records
-/

namespace Fields

instance (value : α) : (pure value : Fields σ α).RefusesDamage where
  ofMembers _ _ _ own := nomatch own
  ofItems read := by
    cases read
    exact ⟨[], rfl, List.forall_mem_nil _⟩

instance (first : Fields σ (α → β)) (second : Fields σ α) [first.RefusesDamage]
    [second.RefusesDamage] : (first <*> second).RefusesDamage where
  ofMembers read entry among own := by
    obtain ⟨_, firstRead, _, secondRead, _⟩ := seq_fromMembers_eq_ok_iff.mp read
    rcases List.mem_append.mp own with own | own
    · exact RefusesDamage.ofMembers firstRead entry among own
    · exact RefusesDamage.ofMembers secondRead entry among own
  ofItems read := by
    obtain ⟨_, _, firstRead, _, secondRead, _⟩ := seq_fromItems_eq_ok_iff.mp read
    obtain ⟨taken, rfl, sound⟩ := RefusesDamage.ofItems firstRead
    obtain ⟨more, rfl, moreSound⟩ := RefusesDamage.ofItems secondRead
    exact ⟨taken ++ more, (List.append_assoc ..).symm, List.forall_mem_append.mpr ⟨sound, moreSound⟩⟩

/-- A member of the name is the one that is decoded, since a second one is refused. -/
instance (name : String) (decode : Decoder α) [decode.RefusesDamage] (absent : Option α)
    (write : σ → List (String × Json)) : (member name decode absent write).RefusesDamage where
  ofMembers {entries value} read entry among own := by
    cases List.mem_singleton.mp own
    obtain ⟨once, takes⟩ := fromMember_eq_ok_iff.mp read
    rw [lookup_of_count_le_one once among] at takes
    exact Decoder.RefusesDamage.skip?_eq_none takes
  ofItems {missing ending index items rest value} read := by
    obtain ⟨rfl, _, takes⟩ := fromItem_eq_ok_iff.mp read
    cases items with
    | nil => exact ⟨[], rfl, List.forall_mem_nil _⟩
    | cons item items =>
        exact ⟨[item], rfl, List.forall_mem_singleton.mpr
          (Decoder.RefusesDamage.skip?_eq_none takes)⟩

/-- The members of an object are taken or passed over, and no item of a list is left over. -/
instance (fields : Fields σ α) [fields.RefusesDamage] (owner : Owner) :
    (fields.decoder owner).RefusesDamage where
  skip?_eq_none {document} _ accepted := by
    cases document with
    | object members ending tooDeep =>
        obtain ⟨entries, rfl, rfl, rfl, strays, read⟩ := decoder_object_eq_ok_iff.mp accepted
        refine skip?_object fun entry among => ?_
        by_cases own : entry.1 ∈ fields.names
        · exact RefusesDamage.ofMembers read entry among own
        · exact strayError?_eq_none_iff.mp strays entry among own
    | list items ending tooDeep =>
        cases tooDeep with
        | true => cases accepted
        | false =>
            obtain ⟨⟨_, rest⟩, read, complete⟩ := ok_of_bind_ok accepted
            obtain ⟨taken, rfl, sound⟩ := RefusesDamage.ofItems read
            dsimp only at complete
            split at complete
            · rename_i none
              obtain ⟨rfl, rfl⟩ := surplus?_eq_none none
              rw [List.append_nil]
              exact skip?_list sound
            · cases complete
    | number | text => rfl
    | _ => cases accepted

/-- The members beside the own fields are buffered. -/
instance (name : String) (fields : Fields σ (α → β)) [fields.RefusesDamage] (inner : Decoder α) :
    (Decoder.flattened name fields inner).RefusesDamage where
  skip?_eq_none accepted := by
    obtain ⟨entries, others, _, _, rfl, own, kept, _⟩ := Decoder.flattened_eq_ok_iff.mp accepted
    refine skip?_object fun entry among => ?_
    by_cases wanted : entry.1 ∈ fields.names
    · exact RefusesDamage.ofMembers own entry among wanted
    · have other : entry ∈ heldEntries others := by
        rw [← kept, List.mem_filter]
        exact ⟨among, by simpa using wanted⟩
      exact skip?_of_mem_heldEntries other

instance (name : String) (codec : Codec α) [codec.decode.RefusesDamage] (get : σ → α) :
    (required name codec get).RefusesDamage :=
  inferInstanceAs (member name codec.decode none _).RefusesDamage

instance (name : String) (codec : Codec α) [codec.decode.RefusesDamage] (absent : α)
    (get : σ → α) : (defaulted name codec absent get).RefusesDamage :=
  inferInstanceAs (member name codec.decode (some absent) _).RefusesDamage

instance (name : String) (codec : Codec α) [codec.decode.RefusesDamage] (get : σ → Option α) :
    (optional name codec get).RefusesDamage :=
  inferInstanceAs (member name codec.decode.option (some none) _).RefusesDamage

end Fields

/-!
## Codecs
-/

namespace Codec

instance : text.decode.RefusesDamage := inferInstanceAs Decoder.text.RefusesDamage

instance : boolean.decode.RefusesDamage := inferInstanceAs Decoder.boolean.RefusesDamage

instance : scaled.decode.RefusesDamage := inferInstanceAs readScaled.RefusesDamage

instance : unsigned64.decode.RefusesDamage :=
  inferInstanceAs ((Decoder.integer _ _ _).map _).RefusesDamage

instance : unsigned32.decode.RefusesDamage :=
  inferInstanceAs ((Decoder.integer _ _ _).map _).RefusesDamage

instance : unsigned8.decode.RefusesDamage :=
  inferInstanceAs ((Decoder.integer _ _ _).map _).RefusesDamage

instance : amount.decode.RefusesDamage :=
  inferInstanceAs ((Decoder.textAs .amount).refine _).RefusesDamage

instance : bytes.decode.RefusesDamage := inferInstanceAs (Decoder.text.refine _).RefusesDamage

instance (size : Nat) : (fixedBytes size).decode.RefusesDamage :=
  inferInstanceAs (Decoder.text.refine _).RefusesDamage

instance : address.decode.RefusesDamage := inferInstanceAs (Decoder.text.refine _).RefusesDamage

instance : timestamp.decode.RefusesDamage :=
  inferInstanceAs ((Decoder.textAs .timestamp).refine _).RefusesDamage

instance (first second : Codec α) : (either first second).decode.RefusesDamage :=
  inferInstanceAs (Decoder.either _ _).RefusesDamage

instance : solutionId.decode.RefusesDamage := inferInstanceAs (either _ _).decode.RefusesDamage

instance : auctionReference.decode.RefusesDamage :=
  inferInstanceAs (either _ _).decode.RefusesDamage

instance : auctionId.decode.RefusesDamage := inferInstanceAs (either _ _).decode.RefusesDamage

variable (codec : Codec α) [codec.decode.RefusesDamage]

instance : codec.list.decode.RefusesDamage := inferInstanceAs codec.decode.list.RefusesDamage

instance : codec.option.decode.RefusesDamage := inferInstanceAs codec.decode.option.RefusesDamage

instance [DecidableEq β] (entries : List (String × β)) : (oneOf entries).decode.RefusesDamage :=
  inferInstanceAs (Decoder.oneOf entries).RefusesDamage

instance (name : String) (fields : Fields α α) [fields.RefusesDamage] :
    (record name fields).decode.RefusesDamage :=
  inferInstanceAs (fields.decoder _).RefusesDamage

end Codec

/-!
## Formats
-/

instance : side.decode.RefusesDamage := inferInstanceAs (Codec.oneOf _).decode.RefusesDamage

instance : orderClass.decode.RefusesDamage := inferInstanceAs (Codec.oneOf _).decode.RefusesDamage

instance : sellSource.decode.RefusesDamage := inferInstanceAs (Codec.oneOf _).decode.RefusesDamage

instance : buyDestination.decode.RefusesDamage :=
  inferInstanceAs (Codec.oneOf _).decode.RefusesDamage

instance : signingScheme.decode.RefusesDamage :=
  inferInstanceAs (Codec.oneOf _).decode.RefusesDamage

instance : creationTime.decode.RefusesDamage :=
  inferInstanceAs (Decoder.firstOf _ _).RefusesDamage

instance : hook.decode.RefusesDamage := by
  unfold hook contractCallFields
  infer_instance

instance : quotedTerms.decode.RefusesDamage := by
  unfold quotedTerms
  infer_instance

instance : feePolicy.decode.RefusesDamage := inferInstanceAs (Decoder.union _ _).RefusesDamage

instance : order.decode.RefusesDamage := by
  unfold order orderFields
  infer_instance

instance : token.decode.RefusesDamage := by
  unfold token
  infer_instance

instance : reserve.decode.RefusesDamage := by
  unfold reserve
  infer_instance

instance : liquidity.decode.RefusesDamage := by
  unfold liquidity
  infer_instance

instance : auction.decode.RefusesDamage := by
  unfold auction
  infer_instance

instance : orderUid.decode.RefusesDamage :=
  inferInstanceAs (Codec.fixedBytes 56).decode.RefusesDamage

instance : fulfillmentFields.RefusesDamage := by
  unfold fulfillmentFields
  infer_instance

instance : swapFields.RefusesDamage := by
  unfold swapFields
  infer_instance

instance : trade.decode.RefusesDamage := inferInstanceAs (Decoder.union _ _).RefusesDamage

instance : interaction.decode.RefusesDamage := inferInstanceAs (Decoder.union _ _).RefusesDamage

instance : announcement.decode.RefusesDamage := by
  unfold announcement
  infer_instance

instance : announcements.decode.RefusesDamage := by
  unfold announcements
  infer_instance

instance : revealRequest.decode.RefusesDamage := by
  unfold revealRequest
  infer_instance

instance : calldata.decode.RefusesDamage := by
  unfold calldata
  infer_instance

instance : revealResponse.decode.RefusesDamage := by
  unfold revealResponse
  infer_instance

instance : settleRequest.decode.RefusesDamage := by
  unfold settleRequest
  infer_instance

instance : settleResponse.decode.RefusesDamage := by
  unfold settleResponse
  infer_instance

instance : refusal.decode.RefusesDamage := by
  unfold refusal
  infer_instance

instance : quoteRequest.decode.RefusesDamage := by
  unfold quoteRequest quoteRequestFields
  infer_instance

instance : solutionReference.RefusesDamage := inferInstanceAs (Decoder.firstOf _ _).RefusesDamage

instance : transaction.decode.RefusesDamage := by
  unfold transaction transactionFields
  infer_instance

instance : notificationFields.RefusesDamage := by
  unfold notificationFields
  infer_instance

instance : notification.RefusesDamage := inferInstanceAs (Decoder.flattened _ _ _).RefusesDamage

instance (format : Format) : format.decoder.RefusesDamage := by
  cases format <;> dsimp only [Format.decoder, Format.Payload] <;> infer_instance

end BatchAuction.Wire
