import BatchAuction.Proofs.Decimal.Integer
import BatchAuction.Proofs.Wire.Recognition
import BatchAuction.Wire.Request

/-!
# What identifiers denote

An identifier is an integer, written as a number or as an integer text. Every reader of
identifiers takes a value for the integer that it denotes, whichever of the two it tries
first, wherever it finds the value and whatever stands beside it.
-/

set_option autoImplicit false

namespace BatchAuction.Wire

open Json Fields Decimal

variable {medium : Medium} {value : Json}

/-- The value is the integer, as a number or as a text of it. -/
inductive Denotes (signed : Bool) : Json → Int → Prop where
  | number (n : Int) : Denotes signed (.integer n) n
  | text {s : String} {n : Int} : IntegerText signed s.toList n → Denotes signed (.text s) n

theorem denotes_sorted_iff {signed : Bool} {n : Int} :
    Denotes signed value.sorted n ↔ Denotes signed value n := by
  cases value with
  | list items => exact iff_of_false nofun nofun
  | object members => exact iff_of_false nofun nofun
  | _ => simp only [sorted]

theorem denotes_iff {signed : Bool} {n : Int} :
    Denotes signed value n ↔
      value = .integer n ∨ ∃ s, value = .text s ∧ IntegerText signed s.toList n := by
  constructor
  · intro denotes
    cases denotes with
    | number => exact .inl rfl
    | text denoted => exact .inr ⟨_, rfl, denoted⟩
  · rintro (rfl | ⟨s, rfl, denoted⟩)
    · exact .number n
    · exact .text denoted

/-!
## One format
-/

/-- The machine integers that a reader stands for, with the integer that each is. -/
structure IsMachineInteger {α : Type} (read : Int → α) (write : α → Int)
    (least greatest : Int) : Prop where
  range : ∀ id, least ≤ write id ∧ write id ≤ greatest
  read_write : ∀ id, read (write id) = id
  write_read : ∀ n, least ≤ n → n ≤ greatest → write (read n) = n

theorem int64_isMachineInteger : IsMachineInteger Int64.ofInt Int64.toInt
    Int64.minValue.toInt Int64.maxValue.toInt where
  range id := ⟨id.minValue_le_toInt, id.toInt_le⟩
  read_write id := Int64.ofInt_toInt id
  write_read _ lower upper := Int64.toInt_ofInt_of_le lower (Int.lt_add_one_of_le upper)

theorem uint64_isMachineInteger : IsMachineInteger (fun n => UInt64.ofNat n.toNat)
    (fun id => (id.toNat : Int)) 0 (UInt64.size - 1) where
  range id := ⟨Int.natCast_nonneg _, Int.le_sub_one_of_lt (Int.ofNat_lt.mpr id.toNat_lt)⟩
  read_write id := UInt64.ofNat_toNat
  write_read n lower upper := by
    have small : n.toNat < 2 ^ 64 := by
      have size : UInt64.size = 2 ^ 64 := rfl
      omega
    rw [UInt64.toNat_ofNat', Nat.mod_eq_of_lt small]
    exact Int.toNat_of_nonneg lower

variable {α : Type} {read : Int → α} {write : α → Int} {least greatest : Int} {id : α}

theorem IsMachineInteger.read_eq_iff (machine : IsMachineInteger read write least greatest)
    {n : Int} (lower : least ≤ n) (upper : n ≤ greatest) : read n = id ↔ n = write id := by
  constructor
  · rintro rfl
    exact (machine.write_read n lower upper).symm
  · rintro rfl
    exact machine.read_write id

theorem IsMachineInteger.exists_read_iff (machine : IsMachineInteger read write least greatest)
    (denotes : Int → Prop) :
    (∃ n, (denotes n ∧ least ≤ n ∧ n ≤ greatest) ∧ read n = id) ↔ denotes (write id) := by
  constructor
  · rintro ⟨n, ⟨denoted, lower, upper⟩, same⟩
    rwa [← (machine.read_eq_iff lower upper).mp same]
  · intro denoted
    exact ⟨write id, ⟨denoted, machine.range id⟩, machine.read_write id⟩

/-- A number is read just if it is the integer. -/
theorem IsMachineInteger.integer_eq_some_iff
    (machine : IsMachineInteger read write least greatest) (expected : Expected) :
    ((Decoder.integer least greatest expected).map read).outcome? medium value = some id ↔
      value = .integer (write id) := by
  rw [Decoder.outcome?_map]
  match value with
  | .number (.integer n) =>
      have outcome : (Decoder.integer least greatest expected).outcome? medium
          (.number (.integer n)) = if least ≤ n ∧ n ≤ greatest then some n else none := by
        unfold Decoder.outcome? Decoder.integer
        simp only [toDocument]
        split <;> rfl
      rw [outcome, Json.integer, Json.number.injEq, Number.integer.injEq]
      split
      · rename_i within
        rw [Option.map_some, Option.some_inj, machine.read_eq_iff within.1 within.2]
      · rename_i outside
        exact iff_of_false nofun fun same => outside (same ▸ machine.range id)
  | .number (.real _) | .null | .boolean _ | .text _ | .list _ | .object _ =>
      exact iff_of_false nofun nofun

/-- A text is read just if its check accepts it. -/
theorem text_refine_eq_some_iff {check : String → Except Cause α} :
    (Decoder.text.refine check).outcome? medium value = some id ↔
      ∃ s, value = .text s ∧ check s = .ok id := by
  rw [Decoder.outcome?_refine]
  match value with
  | .text s =>
      have outcome : Decoder.text.outcome? medium (.text s) = some s := rfl
      rw [outcome, Option.bind_some, toOption_eq_some_iff]
      simp
  | .number _ | .null | .boolean _ | .list _ | .object _ =>
      exact iff_of_false nofun nofun

/-!
## Identifiers
-/

namespace Codec

theorem signed64_eq_some_iff {id : Int64} :
    signed64.decode.outcome? medium value = some id ↔ value = .integer id.toInt :=
  int64_isMachineInteger.integer_eq_some_iff _

theorem unsigned64_eq_some_iff {id : UInt64} :
    unsigned64.decode.outcome? medium value = some id ↔ value = .natural id.toNat :=
  uint64_isMachineInteger.integer_eq_some_iff _

theorem signedText_eq_some_iff {id : Int64} :
    signedText.decode.outcome? medium value = some id ↔
      ∃ s, value = .text s ∧ IntegerText true s.toList id.toInt := by
  refine text_refine_eq_some_iff.trans (exists_congr fun s => and_congr_right fun _ => ?_)
  have parses : ∀ n, parseSigned Int64.maxValue.toNatClampNeg s = .ok n ↔
      IntegerText true s.toList n ∧ Int64.minValue.toInt ≤ n ∧ n ≤ Int64.maxValue.toInt :=
    fun _ => parseSigned_eq_ok_iff
  rw [← int64_isMachineInteger.exists_read_iff (IntegerText true s.toList)]
  simp only [← parses]
  cases parseSigned Int64.maxValue.toNatClampNeg s <;> simp

theorem unsignedText_eq_some_iff {id : UInt64} :
    unsignedText.decode.outcome? medium value = some id ↔
      ∃ s, value = .text s ∧ IntegerText false s.toList id.toNat := by
  refine text_refine_eq_some_iff.trans (exists_congr fun s => and_congr_right fun _ => ?_)
  have parses : ∀ n : Nat, parseUnsigned (UInt64.size - 1) s = .ok n ↔
      IntegerText false s.toList n ∧ n ≤ UInt64.size - 1 := fun _ => parseUnsigned_eq_ok_iff
  have own := parses id.toNat
  rw [and_iff_left (Nat.le_sub_one_of_lt id.toNat_lt)] at own
  cases read : parseUnsigned (UInt64.size - 1) s with
  | error error =>
      rw [read] at own
      exact iff_of_false nofun fun text => nomatch own.mpr text
  | ok n =>
      have below : n < 2 ^ 64 := by
        have size : UInt64.size = 2 ^ 64 := rfl
        have bound := ((parses n).mp read).2
        omega
      rw [← own, read, Except.ok.injEq, Except.ok.injEq]
      constructor
      · rintro rfl
        rw [UInt64.toNat_ofNat', Nat.mod_eq_of_lt below]
      · rintro rfl
        exact UInt64.ofNat_toNat

/-- Of two formats that accept no value in common either one may be tried first. -/
theorem either_eq_some_iff {first second : Codec α}
    (apart : first.decode.outcome? .buffer value = none ∨
      second.decode.outcome? .buffer value = none) :
    (either first second).decode.outcome? medium value = some id ↔
      first.decode.outcome? .buffer value = some id ∨
        second.decode.outcome? .buffer value = some id := by
  have outcome : (either first second).decode.outcome? medium value =
      (first.decode.outcome? .buffer value).or (second.decode.outcome? .buffer value) :=
    Decoder.outcome?_either ..
  rw [outcome]
  rcases apart with none | none <;> simp [none]

theorem auctionId_eq_some_iff {id : Int64} :
    auctionId.decode.outcome? medium value = some id ↔ Denotes true value id.toInt := by
  have apart : signedText.decode.outcome? .buffer value = none ∨
      signed64.decode.outcome? .buffer value = none := by
    cases value <;> first | exact .inl rfl | exact .inr rfl
  rw [auctionId, either_eq_some_iff apart, signedText_eq_some_iff, signed64_eq_some_iff,
    denotes_iff, or_comm]

theorem auctionReference_eq_some_iff {id : Int64} :
    auctionReference.decode.outcome? medium value = some id ↔ Denotes true value id.toInt := by
  have apart : signed64.decode.outcome? .buffer value = none ∨
      signedText.decode.outcome? .buffer value = none := by
    cases value <;> first | exact .inl rfl | exact .inr rfl
  rw [auctionReference, either_eq_some_iff apart, signedText_eq_some_iff,
    signed64_eq_some_iff, denotes_iff]

theorem solutionId_eq_some_iff {id : UInt64} :
    solutionId.decode.outcome? medium value = some id ↔ Denotes false value id.toNat := by
  have apart : unsigned64.decode.outcome? .buffer value = none ∨
      unsignedText.decode.outcome? .buffer value = none := by
    cases value <;> first | exact .inl rfl | exact .inr rfl
  rw [solutionId, either_eq_some_iff apart, unsignedText_eq_some_iff,
    unsigned64_eq_some_iff, denotes_iff]
  rfl

end Codec

/-- The lenient reader finds the same identifier as the strict ones. -/
theorem looseAuctionId?_eq_some_iff {id : Int64} :
    looseAuctionId? value = some id ↔ Denotes true value id.toInt := by
  rw [denotes_iff]
  match value with
  | .number (.integer n) =>
      have same : looseAuctionId? (.number (.integer n)) =
          Codec.signed64.decode.outcome? .buffer (.number (.integer n)) := by
        unfold looseAuctionId? Decoder.outcome? Codec.signed64 Decoder.map Decoder.integer
        simp only [toDocument]
        split <;> rfl
      rw [same, Codec.signed64_eq_some_iff]
      simp
  | .text s =>
      have same : looseAuctionId? (.text s) =
          Codec.signedText.decode.outcome? .buffer (.text s) := by
        unfold looseAuctionId? Codec.signedText
        rw [Decoder.outcome?_refine]
        have outcome : Decoder.text.outcome? .buffer (.text s) = some s := rfl
        rw [outcome, Option.bind_some]
        dsimp only
        cases parseSigned Int64.maxValue.toNatClampNeg s <;> rfl
      rw [same, Codec.signedText_eq_some_iff]
      simp [Json.integer]
  | .number (.real _) | .null | .boolean _ | .list _ | .object _ =>
      refine iff_of_false nofun ?_
      rintro (same | ⟨s, same, _⟩) <;> cases same

/-- A reference to one solution is read just if the value denotes its identifier. -/
theorem solutionReference_single_iff {id : UInt64} :
    solutionReference.outcome? medium value = some (.single id) ↔
      Denotes false value id.toNat := by
  have buffered : Codec.solutionId.decode.outcome? .buffer value = some id ↔
    Denotes false value id.toNat := Codec.solutionId_eq_some_iff
  unfold solutionReference
  rw [Decoder.outcome?_firstOf, ← buffered]
  simp only [List.findSome?_cons, Decoder.outcome?_map, List.findSome?_nil]
  cases Codec.solutionId.decode.outcome? .buffer value with
  | some found => simp
  | none => cases Codec.unsigned64.decode.list.outcome? .buffer value <;> simp

theorem unsigned64_list_eq_some_iff {ids : List UInt64} :
    Codec.unsigned64.decode.list.outcome? medium value = some ids ↔
      value = .list (ids.map fun id => .natural id.toNat) := by
  cases value with
  | list items =>
      rw [Decoder.outcome?_list, mapM_eq_some_iff, Json.list.injEq, ← List.forall₂_eq_eq_eq,
        List.forall₂_map_right_iff]
      simp only [Codec.unsigned64_eq_some_iff]
  | _ => exact iff_of_false nofun nofun

/-- A reference to several solutions is read just if the value lists numbers. -/
theorem solutionReference_merged_iff {ids : List UInt64} :
    solutionReference.outcome? medium value = some (.merged ids) ↔
      value = .list (ids.map fun id => .natural id.toNat) := by
  have buffered : Codec.unsigned64.decode.list.outcome? .buffer value = some ids ↔
    value = .list (ids.map fun id => .natural id.toNat) := unsigned64_list_eq_some_iff
  unfold solutionReference
  rw [Decoder.outcome?_firstOf, ← buffered]
  simp only [List.findSome?_cons, Decoder.outcome?_map, List.findSome?_nil]
  cases single : Codec.solutionId.decode.outcome? .buffer value with
  | none => cases Codec.unsigned64.decode.list.outcome? .buffer value <;> simp
  | some found =>
      have denoted := Codec.solutionId_eq_some_iff.mp single
      refine iff_of_false (by simp) fun listed => ?_
      rw [unsigned64_list_eq_some_iff.mp listed] at denoted
      cases denoted

/-!
## Records with identifiers
-/

/-- The member of the name denotes the integer. -/
def MemberDenotes (value : Json) (name : String) (signed : Bool) (n : Int) : Prop :=
  ∃ member, value.member? name = some member ∧ Denotes signed member n

variable {σ : Type} {members : List (String × Json)}

theorem decodeValue_decoder_object {fields : Fields σ α} {owner : Owner} {record : α} :
    decodeValue (fields.decoder owner) (.object members) = .ok record ↔
      fields.ofMembers? .value (sortMembers (sortedMembers members)) = some record := by
  rw [decodeValue_eq_ok_iff, sorted, outcome?_decoder_object]

theorem ofMembers?_sorted_member {name : String} (decode : Decoder α) (absent : Option α)
    (write : σ → List (String × Json)) :
    (member name decode absent write).ofMembers? .value (sortMembers (sortedMembers members)) =
      match (Json.object members).member? name with
      | some member => decode.outcome? .value member.sorted
      | none => absent :=
  ofMembers?_member_of_leads decode absent write (keys_nodup_sortMembers _)
    (lookup_sorted members name)

/-- A required identifier is what its member denotes. -/
theorem identifier_eq_some_iff {name : String} {codec : Codec α} {signed : Bool} {n : Int}
    (get : σ → α)
    (accepts : ∀ value, codec.decode.outcome? .value value = some id ↔ Denotes signed value n) :
    (required name codec get).ofMembers? .value (sortMembers (sortedMembers members)) =
        some id ↔
      MemberDenotes (.object members) name signed n := by
  rw [required, ofMembers?_sorted_member]
  unfold MemberDenotes
  cases (Json.object members).member? name with
  | none => simp
  | some member => simp [accepts, denotes_sorted_iff]

theorem decodeValue_revealRequest_iff {request : RevealRequest} :
    decodeValue revealRequest.decode (.object members) = .ok request ↔
      MemberDenotes (.object members) "solutionId" false request.solutionId.toNat ∧
      MemberDenotes (.object members) "auctionId" true request.auctionId.toInt := by
  rw [revealRequest, Codec.record, decodeValue_decoder_object,
    ← identifier_eq_some_iff RevealRequest.solutionId fun _ => Codec.solutionId_eq_some_iff,
    ← identifier_eq_some_iff RevealRequest.auctionId
      fun _ => Codec.auctionReference_eq_some_iff]
  simp only [ofMembers?_seq_eq_some_iff, ofMembers?_pure_eq_some_iff, exists_eq_left']
  constructor
  · rintro ⟨_, ⟨solutionId, solutionRead, rfl⟩, auctionId, auctionRead, rfl⟩
    exact ⟨solutionRead, auctionRead⟩
  · rintro ⟨solutionRead, auctionRead⟩
    exact ⟨_, ⟨_, solutionRead, rfl⟩, _, auctionRead, rfl⟩

theorem decodeValue_settleRequest_iff {request : SettleRequest} :
    decodeValue settleRequest.decode (.object members) = .ok request ↔
      MemberDenotes (.object members) "solutionId" false request.solutionId.toNat ∧
      (Json.object members).member? "submissionDeadlineLatestBlock" =
        some (.natural request.submissionDeadlineLatestBlock.toNat) ∧
      MemberDenotes (.object members) "auctionId" true request.auctionId.toInt := by
  have block : (required "submissionDeadlineLatestBlock" Codec.unsigned64
      SettleRequest.submissionDeadlineLatestBlock).ofMembers? .value
        (sortMembers (sortedMembers members)) = some request.submissionDeadlineLatestBlock ↔
      (Json.object members).member? "submissionDeadlineLatestBlock" =
        some (.natural request.submissionDeadlineLatestBlock.toNat) := by
    rw [required, ofMembers?_sorted_member]
    cases (Json.object members).member? "submissionDeadlineLatestBlock" with
    | none => simp
    | some member => simp [Codec.unsigned64_eq_some_iff, sorted_eq_natural_iff]
  rw [settleRequest, Codec.record, decodeValue_decoder_object, ← block,
    ← identifier_eq_some_iff SettleRequest.solutionId fun _ => Codec.solutionId_eq_some_iff,
    ← identifier_eq_some_iff SettleRequest.auctionId
      fun _ => Codec.auctionReference_eq_some_iff]
  simp only [ofMembers?_seq_eq_some_iff, ofMembers?_pure_eq_some_iff, exists_eq_left']
  constructor
  · rintro ⟨_, ⟨_, ⟨solutionId, solutionRead, rfl⟩, block, blockRead, rfl⟩, auctionId,
      auctionRead, rfl⟩
    exact ⟨solutionRead, blockRead, auctionRead⟩
  · rintro ⟨solutionRead, blockRead, auctionRead⟩
    exact ⟨_, ⟨_, ⟨_, solutionRead, rfl⟩, _, blockRead, rfl⟩, _, auctionRead, rfl⟩

/-- The member of the name denotes the identifier, or there is neither: it is missing or
null. -/
def MayDenote (value : Json) (name : String) : Option Int64 → Prop
  | some id => MemberDenotes value name true id.toInt
  | none => value.member? name = none ∨ value.member? name = some .null

theorem auctionIdField_eq_some_iff {id : Option Int64} :
    (defaulted "id" Codec.auctionId.option none PostedAuction.id).ofMembers? .value
        (sortMembers (sortedMembers members)) = some id ↔
      MayDenote (.object members) "id" id := by
  rw [defaulted, ofMembers?_sorted_member]
  unfold MayDenote MemberDenotes
  cases (Json.object members).member? "id" with
  | none => cases id <;> simp
  | some member =>
      have option_eq : Codec.auctionId.option.decode = Codec.auctionId.decode.option := rfl
      simp only [option_eq, Decoder.outcome?_option]
      split
      · rename_i null
        rw [sorted_eq_null_iff.mp null]
        cases id with
        | none => simp
        | some id => exact iff_of_false nofun fun ⟨_, same, denotes⟩ => by cases same; cases denotes
      · rename_i present
        rw [Option.map_eq_some_iff]
        simp only [Codec.auctionId_eq_some_iff, denotes_sorted_iff]
        cases id with
        | none =>
            have other : member ≠ .null := fun null => present (sorted_eq_null_iff.mpr null)
            simp [other]
        | some id => simp

/-- The members of an object without its identifier. -/
def withoutId (members : List (String × Json)) : List (String × Json) :=
  members.filter fun member => member.1 != "id"

/-- The identifier has no part in what becomes of the other fields. -/
theorem ofMembers?_withoutId {name : String} (other : name ≠ "id") (decode : Decoder α)
    (absent : Option α) (write : σ → List (String × Json)) :
    (member name decode absent write).ofMembers? .value
        (sortMembers (sortedMembers (withoutId members))) =
      (member name decode absent write).ofMembers? .value
        (sortMembers (sortedMembers members)) := by
  have same : (Json.object (withoutId members)).member? name =
      (Json.object members).member? name := by
    unfold member? withoutId
    dsimp only
    rw [lookup?_filter_key members (· != "id"), if_pos (bne_iff_ne.mpr other)]
  rw [ofMembers?_sorted_member, ofMembers?_sorted_member, same]

theorem required_withoutId {name : String} (other : name ≠ "id") (codec : Codec α)
    (get : σ → α) :
    (required name codec get).ofMembers? .value
        (sortMembers (sortedMembers (withoutId members))) =
      (required name codec get).ofMembers? .value (sortMembers (sortedMembers members)) :=
  ofMembers?_withoutId other ..

theorem defaulted_withoutId {name : String} (other : name ≠ "id") (codec : Codec α)
    (absent : α) (get : σ → α) :
    (defaulted name codec absent get).ofMembers? .value
        (sortMembers (sortedMembers (withoutId members))) =
      (defaulted name codec absent get).ofMembers? .value
        (sortMembers (sortedMembers members)) :=
  ofMembers?_withoutId other ..

/-- An auction takes what its member denotes for its identifier, and all else as if there
were none. -/
theorem decodeValue_auction_iff {found : PostedAuction} :
    decodeValue auction.decode (.object members) = .ok found ↔
      MayDenote (.object members) "id" found.id ∧
        decodeValue auction.decode (.object (withoutId members)) =
          .ok { found with id := none } := by
  have none_read : (defaulted "id" Codec.auctionId.option none PostedAuction.id).ofMembers? .value
      (sortMembers (sortedMembers (withoutId members))) = some none := by
    refine auctionIdField_eq_some_iff.mpr (.inl ?_)
    exact lookup?_filter_key members (· != "id") "id"
  rw [auction, Codec.record, decodeValue_decoder_object, decodeValue_decoder_object,
    ← auctionIdField_eq_some_iff]
  simp only [ofMembers?_seq_eq_some_iff, ofMembers?_pure_eq_some_iff, exists_eq_left', none_read,
    Option.some_inj]
  simp (disch := decide) only [required_withoutId, defaulted_withoutId]
  constructor
  · rintro ⟨_, ⟨_, ⟨_, ⟨_, ⟨_, ⟨_, ⟨id, idRead, rfl⟩, tokens, tokensRead, rfl⟩, orders, ordersRead,
      rfl⟩, liquidity, liquidityRead, rfl⟩, price, priceRead, rfl⟩, deadline, deadlineRead, rfl⟩,
      owners, ownersRead, rfl⟩
    exact ⟨idRead, _, ⟨_, ⟨_, ⟨_, ⟨_, ⟨tokens, tokensRead, rfl⟩, orders, ordersRead, rfl⟩,
      liquidity, liquidityRead, rfl⟩, price, priceRead, rfl⟩, deadline, deadlineRead, rfl⟩,
      owners, ownersRead, rfl⟩
  · rintro ⟨idRead, _, ⟨_, ⟨_, ⟨_, ⟨_, ⟨tokens, tokensRead, rfl⟩, orders, ordersRead, rfl⟩,
      liquidity, liquidityRead, rfl⟩, price, priceRead, rfl⟩, deadline, deadlineRead, rfl⟩,
      owners, ownersRead, same⟩
    obtain ⟨-, rfl, rfl, rfl, rfl, rfl, rfl⟩ := PostedAuction.mk.inj same
    exact ⟨_, ⟨_, ⟨_, ⟨_, ⟨_, ⟨_, ⟨_, idRead, rfl⟩, _, tokensRead, rfl⟩, _, ordersRead, rfl⟩,
      _, liquidityRead, rfl⟩, _, priceRead, rfl⟩, _, deadlineRead, rfl⟩, _, ownersRead, rfl⟩

/-!
## Identifiers of notifications
-/

/-- What may be held is what is held, of a decoder that refuses null. -/
theorem MayHold.eq_some_iff {name : String} {decode : Decoder α} {part : Option α}
    (held : MayHold value name decode part) (refused : ∀ part, decodeValue decode .null ≠ .ok part) :
    part = some id ↔ Holds value name decode id := by
  cases part with
  | some part =>
      obtain ⟨member, found, decoded⟩ := held
      constructor
      · intro same
        cases same
        exact ⟨member, found, decoded⟩
      · rintro ⟨other, otherFound, otherDecoded⟩
        cases found.symm.trans otherFound
        cases decoded.symm.trans otherDecoded
        rfl
  | none =>
      refine iff_of_false nofun ?_
      rintro ⟨member, found, decoded⟩
      rcases held with missing | null
      · cases missing.symm.trans found
      · cases null.symm.trans found
        exact refused id decoded

theorem holds_identifier_iff {name : String} {decode : Decoder α} {signed : Bool} {n : Int}
    (accepts : ∀ value, decode.outcome? .value value = some id ↔ Denotes signed value n) :
    Holds value name decode id ↔ MemberDenotes value name signed n := by
  unfold Holds MemberDenotes
  simp only [decodeValue_eq_ok_iff, accepts, denotes_sorted_iff]

variable {notification : Notification}

/-- The auction of a notification is what its member denotes, recognized or not. -/
theorem lenientNotification_auctionId_iff {id : Int64}
    (read : lenientNotification (.object members) = .ok notification) :
    notification.auctionId = some id ↔
      MemberDenotes (.object members) "auctionId" true id.toInt := by
  rcases lenientNotification_eq_ok_iff.mp read with recognized | ⟨_, _, rfl⟩
  · rw [recognized.auctionId.eq_some_iff auctionId_refuses_null]
    exact holds_identifier_iff fun _ => Codec.auctionId_eq_some_iff
  · unfold unrecognized MemberDenotes
    simp only [Option.bind_eq_some_iff, looseAuctionId?_eq_some_iff]

theorem lenientNotification_solution_iff {reference : SolutionReference}
    (read : lenientNotification (.object members) = .ok notification) :
    notification.solution = some reference ↔
      Holds (.object members) "solutionId" solutionReference reference := by
  rcases lenientNotification_eq_ok_iff.mp read with recognized | ⟨_, _, rfl⟩
  · exact recognized.solution.eq_some_iff solutionReference_refuses_null
  · unfold unrecognized Holds
    simp only [Option.bind_eq_some_iff, toOption_eq_some_iff]

theorem holds_single_iff {id : UInt64} :
    Holds value "solutionId" solutionReference (.single id) ↔
      MemberDenotes value "solutionId" false id.toNat := by
  unfold Holds MemberDenotes
  simp only [decodeValue_eq_ok_iff, solutionReference_single_iff, denotes_sorted_iff]

theorem sortedItems_eq_map_natural_iff {items : List Json} {ids : List UInt64} :
    sortedItems items = ids.map (fun id => natural id.toNat) ↔
      items = ids.map fun id => natural id.toNat := by
  induction items generalizing ids with
  | nil => simp [sortedItems]
  | cons item rest ih =>
      cases ids with
      | nil => simp [sortedItems]
      | cons id ids => simp [sortedItems, sorted_eq_natural_iff, ih]

theorem holds_merged_iff {ids : List UInt64} :
    Holds value "solutionId" solutionReference (.merged ids) ↔
      value.member? "solutionId" = some (.list (ids.map fun id => .natural id.toNat)) := by
  unfold Holds
  simp only [decodeValue_eq_ok_iff, solutionReference_merged_iff]
  constructor
  · rintro ⟨member, found, listed⟩
    cases member with
    | list items =>
        rw [sorted, Json.list.injEq, sortedItems_eq_map_natural_iff] at listed
        rw [found, listed]
    | _ => cases listed
  · intro found
    exact ⟨_, found, congrArg Json.list (sortedItems_eq_map_natural_iff.mpr rfl)⟩

/-- An identifier is the integer that its value denotes, in an auction, in a request to
reveal or to settle, and in a notification, whatever stands beside it. A notification may
also be about several solutions, listed as numbers. -/
theorem identifiers_mean_the_same (members : List (String × Json)) :
    let value := Json.object members
    (∀ found, decodeValue auction.decode value = .ok found ↔
      MayDenote value "id" found.id ∧
        decodeValue auction.decode (.object (withoutId members)) =
          .ok { found with id := none }) ∧
    (∀ request, decodeValue revealRequest.decode value = .ok request ↔
      MemberDenotes value "solutionId" false request.solutionId.toNat ∧
      MemberDenotes value "auctionId" true request.auctionId.toInt) ∧
    (∀ request, decodeValue settleRequest.decode value = .ok request ↔
      MemberDenotes value "solutionId" false request.solutionId.toNat ∧
      value.member? "submissionDeadlineLatestBlock" =
        some (.natural request.submissionDeadlineLatestBlock.toNat) ∧
      MemberDenotes value "auctionId" true request.auctionId.toInt) ∧
    ∃ notification, lenientNotification value = .ok notification ∧
      (∀ id, notification.auctionId = some id ↔
        MemberDenotes value "auctionId" true id.toInt) ∧
      (∀ id, notification.solution = some (.single id) ↔
        MemberDenotes value "solutionId" false id.toNat) ∧
      ∀ ids, notification.solution = some (.merged ids) ↔
        value.member? "solutionId" = some (.list (ids.map fun id => .natural id.toNat)) := by
  intro value
  obtain ⟨notification, read⟩ := exists_lenientNotification_eq_ok members
  refine ⟨fun _ => decodeValue_auction_iff, fun _ => decodeValue_revealRequest_iff,
    fun _ => decodeValue_settleRequest_iff, notification, read, fun _ => ?auction,
    fun _ => ?single, fun _ => ?merged⟩
  case auction => exact lenientNotification_auctionId_iff read
  case single => exact (lenientNotification_solution_iff read).trans holds_single_iff
  case merged => exact (lenientNotification_solution_iff read).trans holds_merged_iff

end BatchAuction.Wire
