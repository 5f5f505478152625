import BatchAuction.Proofs.Wire.Agreement
import BatchAuction.Proofs.Wire.Restoration

/-!
# Decoding undoes encoding

Every payload that is read and written comes back from what is written for it, both from
the value held in memory and from its text. Only the fee of a source of liquidity may come
back in another scale; it is the same number.
-/

set_option autoImplicit false

namespace BatchAuction.Wire

open Json Fields Codec

variable {depth : Nat}

/-!
## Auctions
-/

theorem side_lossless : side.Lossless depth :=
  oneOf_lossless (fun value => by cases value <;> decide) (by decide)

theorem orderClass_lossless : orderClass.Lossless depth :=
  oneOf_lossless (fun value => by cases value <;> decide) (by decide)

theorem sellSource_lossless : sellSource.Lossless depth :=
  oneOf_lossless (fun value => by cases value <;> decide) (by decide)

theorem buyDestination_lossless : buyDestination.Lossless depth :=
  oneOf_lossless (fun value => by cases value <;> decide) (by decide)

theorem signingScheme_lossless : signingScheme.Lossless depth :=
  oneOf_lossless (fun value => by cases value <;> decide) (by decide)

/-- A time written as a number is read as a number first, and a text is no number. -/
theorem creationTime_lossless : creationTime.Lossless depth where
  fits
    | .number value => unsigned64_lossless.fits value
    | .text value => .text value
  reads medium value := by
    refine (Decoder.outcome?_firstOf "Created"
      [Codec.unsigned64.decode.map CreationTime.number, Codec.text.decode.map .text]
      (creationTime.encode value)).trans ?_
    cases value with
    | number value =>
        have lossless : Codec.unsigned64.Lossless 0 := unsigned64_lossless
        have number := lossless.reads .buffer value
        change Codec.unsigned64.decode.outcome? .buffer (creationTime.encode (.number value)) = _
          at number
        rw [List.findSome?_cons, Decoder.outcome?_map, number]
        rfl
    | text value => rfl

theorem hook_lossless : hook.Lossless (depth + 1) :=
  (restores_pure _
    |>.seq (required_restores "target" _ address_lossless)
    |>.seq (required_restores "value" _ amount_lossless)
    |>.seq (required_restores "callData" _ bytes_lossless)).record "InteractionData" (by decide)

theorem quotedTerms_lossless : quotedTerms.Lossless (depth + 1) :=
  (restores_pure _
    |>.seq (required_restores "sellAmount" _ amount_lossless)
    |>.seq (required_restores "buyAmount" _ amount_lossless)
    |>.seq (required_restores "fee" _ amount_lossless)
    |>.seq (optional_restores "solver" _ address_lossless nofun)).record "Quote" (by decide)

theorem surplusFields_restore (depth : Nat) :
    surplusFields.Restores depth fun shares => .surplus shares.1 shares.2 :=
  restores_pure _
    |>.seq (required_restores "factor" _ real_lossless)
    |>.seq (required_restores "maxVolumeFactor" _ real_lossless)

theorem priceImprovementFields_restore (depth : Nat) :
    priceImprovementFields.Restores (depth + 1) fun terms =>
      .priceImprovement terms.1 terms.2.1 terms.2.2 :=
  restores_pure _
    |>.seq (required_restores "factor" _ real_lossless)
    |>.seq (required_restores "maxVolumeFactor" _ real_lossless)
    |>.seq (required_restores "quote" _ quotedTerms_lossless)

theorem volumeFields_restore (depth : Nat) : volumeFields.Restores depth .volume :=
  restores_pure _ |>.seq (required_restores "factor" _ real_lossless)

theorem feePolicy_lossless : feePolicy.Lossless (depth + 2) where
  fits
    | .surplus factor maxVolumeFactor =>
        (surplusFields_restore _).fits_tagged (by decide) "surplus" (factor, maxVolumeFactor)
    | .priceImprovement factor maxVolumeFactor quote =>
        (priceImprovementFields_restore _).fits_tagged (by decide) "priceImprovement"
          (factor, maxVolumeFactor, quote)
    | .volume factor => (volumeFields_restore _).fits_tagged (by decide) "volume" factor
  reads
    | medium, .surplus factor maxVolumeFactor =>
        ((surplusFields_restore 0).outcome?_tagged (by decide) rfl _ medium _).trans
          ((surplusFields_restore 0).outcome?_object (by decide) _ .buffer _)
    | medium, .priceImprovement factor maxVolumeFactor quote =>
        ((priceImprovementFields_restore 0).outcome?_tagged (by decide) rfl _ medium _).trans
          ((priceImprovementFields_restore 0).outcome?_object (by decide) _ .buffer _)
    | medium, .volume factor =>
        ((volumeFields_restore 0).outcome?_tagged (by decide) rfl _ medium _).trans
          ((volumeFields_restore 0).outcome?_object (by decide) _ .buffer _)

theorem order_lossless : order.Lossless (depth + 4) :=
  (restores_pure _
    |>.seq (required_restores "uid" _ (fixedBytes_lossless 56))
    |>.seq (required_restores "sellToken" _ address_lossless)
    |>.seq (required_restores "buyToken" _ address_lossless)
    |>.seq (required_restores "sellAmount" _ amount_lossless)
    |>.seq (required_restores "buyAmount" _ amount_lossless)
    |>.seq (required_restores "fullSellAmount" _ amount_lossless)
    |>.seq (required_restores "fullBuyAmount" _ amount_lossless)
    |>.seq (required_restores "validTo" _ unsigned32_lossless)
    |>.seq (required_restores "kind" _ side_lossless)
    |>.seq (optional_restores "receiver" _ address_lossless nofun)
    |>.seq (required_restores "owner" _ address_lossless)
    |>.seq (required_restores "partiallyFillable" _ boolean_lossless)
    |>.seq (optional_restores "executed" _ amount_lossless nofun)
    |>.seq (optional_restores "created" _ creationTime_lossless (by intro value; cases value <;> nofun))
    |>.seq (defaulted_restores "preInteractions" [] _ (Lossless.list hook_lossless))
    |>.seq (defaulted_restores "postInteractions" [] _ (Lossless.list hook_lossless))
    |>.seq (required_restores "sellTokenSource" _ sellSource_lossless)
    |>.seq (required_restores "buyTokenDestination" _ buyDestination_lossless)
    |>.seq (required_restores "class" _ orderClass_lossless)
    |>.seq (required_restores "appData" _ (fixedBytes_lossless 32))
    |>.seq (required_restores "signingScheme" _ signingScheme_lossless)
    |>.seq (required_restores "signature" _ bytes_lossless)
    |>.seq (defaulted_restores "protocolFees" [] _ (Lossless.list feePolicy_lossless))
    |>.seq (optional_restores "quote" _ quotedTerms_lossless nofun)).record "Order" (by decide)

theorem token_lossless : token.Lossless (depth + 1) :=
  (restores_pure _
    |>.seq (optional_restores "decimals" _ unsigned8_lossless nofun)
    |>.seq (optional_restores "symbol" _ text_lossless nofun)
    |>.seq (optional_restores "referencePrice" _ amount_lossless nofun)
    |>.seq (required_restores "availableBalance" _ amount_lossless)
    |>.seq (required_restores "trusted" _ boolean_lossless)).record "Token" (by decide)

theorem reserve_lossless : reserve.Lossless (depth + 1) :=
  (restores_pure _ |>.seq (required_restores "balance" _ amount_lossless)).record "Reserve"
    (by decide)

/-- A source of liquidity with its fee in the scale that it is read back in. -/
def restoredLiquidity (liquidity : PostedLiquidity) : PostedLiquidity :=
  { liquidity with fee := liquidity.fee.restored }

theorem liquidity_restores : liquidity.Restores (depth + 3) restoredLiquidity :=
  (restores_pure _
    |>.seq (required_restores "id" _ text_lossless)
    |>.seq (required_restores "address" _ address_lossless)
    |>.seq (required_restores "router" _ address_lossless)
    |>.seq (required_restores "fee" _ scaled_restores)
    |>.seq (required_restores "gasEstimate" _ amount_lossless)
    |>.seq (required_restores "kind" _ text_lossless)
    |>.seq (required_restores "tokens" _ (Lossless.table reserve_lossless .refused))).record
    "Liquidity" (by decide)

theorem auctionId_lossless : Codec.auctionId.Lossless depth :=
  signedText_lossless.either _

/-- An auction with all fees of its liquidity in the scale that they are read back in. -/
def restoredAuction (auction : PostedAuction) : PostedAuction :=
  { auction with liquidity := auction.liquidity.map restoredLiquidity }

theorem auction_restores : auction.Restores (depth + 6) restoredAuction :=
  (restores_pure _
    |>.seq (defaulted_restores "id" none _ (Lossless.option auctionId_lossless nofun))
    |>.seq (required_restores "tokens" _ (Lossless.table token_lossless .refused))
    |>.seq (required_restores "orders" _ (Lossless.list order_lossless))
    |>.seq (required_restores "liquidity" _ liquidity_restores.list)
    |>.seq (required_restores "effectiveGasPrice" _ amount_lossless)
    |>.seq (required_restores "deadline" _ timestamp_lossless)
    |>.seq (defaulted_restores "surplusCapturingJitOrderOwners" [] _
      (Lossless.list address_lossless))).record "Auction" (by decide)

/-!
## Announced solutions
-/

theorem fulfillmentFields_restore (depth : Nat) : fulfillmentFields.Restores depth id :=
  restores_pure _
    |>.seq (required_restores "order" _ (fixedBytes_lossless 56))
    |>.seq (required_restores "executedAmount" _ amount_lossless)
    |>.seq (optional_restores "fee" _ amount_lossless nofun)

theorem trade_lossless : trade.Lossless (depth + 1) where
  fits
    | .fulfillment trade => (fulfillmentFields_restore _).fits_tagged (by decide) "fulfillment" trade
  reads
    | medium, .fulfillment trade =>
        ((fulfillmentFields_restore 0).outcome?_tagged (by decide) rfl _ medium _).trans
          ((fulfillmentFields_restore 0).outcome?_object_map (by decide) _ AnnouncedTrade.fulfillment
            .buffer _)

theorem swapFields_restore (depth : Nat) : swapFields.Restores depth id :=
  restores_pure _
    |>.seq (required_restores "internalize" _ boolean_lossless)
    |>.seq (required_restores "id" _ text_lossless)
    |>.seq (required_restores "inputToken" _ address_lossless)
    |>.seq (required_restores "outputToken" _ address_lossless)
    |>.seq (required_restores "inputAmount" _ amount_lossless)
    |>.seq (required_restores "outputAmount" _ amount_lossless)

theorem interaction_lossless : interaction.Lossless (depth + 1) where
  fits
    | .liquidity swap => (swapFields_restore _).fits_tagged (by decide) "liquidity" swap
  reads
    | medium, .liquidity swap =>
        ((swapFields_restore 0).outcome?_tagged (by decide) rfl _ medium _).trans
          ((swapFields_restore 0).outcome?_object_map (by decide) _ AnnouncedInteraction.liquidity
            .buffer _)

theorem announcement_lossless : announcement.Lossless (depth + 3) :=
  (restores_pure _
    |>.seq (required_restores "id" _ unsigned64_lossless)
    |>.seq (required_restores "prices" _ (Lossless.table amount_lossless .replaces))
    |>.seq (required_restores "trades" _ (Lossless.list trade_lossless))
    |>.seq (required_restores "interactions" _ (Lossless.list interaction_lossless))
    |>.seq (optional_restores "gas" _ unsigned64_lossless nofun)).record "Solution" (by decide)

theorem announcements_lossless : announcements.Lossless (depth + 5) :=
  (restores_pure _
    |>.seq (required_restores "solutions" _ (Lossless.list announcement_lossless))).record
    "Solutions" (by decide)

theorem solutionId_lossless : Codec.solutionId.Lossless depth := unsigned64_lossless.either _

theorem auctionReference_lossless : Codec.auctionReference.Lossless depth :=
  signed64_lossless.either _

theorem revealRequest_lossless : revealRequest.Lossless (depth + 1) :=
  (restores_pure _
    |>.seq (required_restores "solutionId" _ solutionId_lossless)
    |>.seq (required_restores "auctionId" _ auctionReference_lossless)).record "Request"
    (by decide)

theorem calldata_lossless : calldata.Lossless (depth + 1) :=
  (restores_pure _
    |>.seq (required_restores "internalized" _ bytes_lossless)
    |>.seq (required_restores "uninternalized" _ bytes_lossless)).record "Calldata" (by decide)

theorem revealResponse_lossless : revealResponse.Lossless (depth + 2) :=
  (restores_pure _ |>.seq (required_restores "calldata" _ calldata_lossless)).record "Response"
    (by decide)

theorem settleRequest_lossless : settleRequest.Lossless (depth + 1) :=
  (restores_pure _
    |>.seq (required_restores "solutionId" _ solutionId_lossless)
    |>.seq (required_restores "submissionDeadlineLatestBlock" _ unsigned64_lossless)
    |>.seq (required_restores "auctionId" _ auctionReference_lossless)).record "Request"
    (by decide)

theorem settleResponse_lossless : settleResponse.Lossless (depth + 1) :=
  (restores_pure _).record "Response" (by decide)

theorem refusal_lossless : refusal.Lossless (depth + 1) :=
  (restores_pure _
    |>.seq (required_restores "kind" _ text_lossless)
    |>.seq (required_restores "description" _ text_lossless)).record "Error" (by decide)

/-!
## Every format that is written
-/

theorem addressesApart_table {α : Type} (repetition : Repetition) (codec : Codec α)
    (table : AddressMap α) : AddressesApart ((Codec.table repetition codec).encode table) := by
  have apart : table.entries.Pairwise fun earlier later => earlier.1 ≠ later.1 :=
    List.pairwise_map.mp table.nodup_keys
  refine List.pairwise_map.mpr (apart.imp fun {earlier later} different address first second => ?_)
  rw [Codec.parseAddress_print] at first second
  exact different ((Except.ok.inj first).trans (Except.ok.inj second).symm)

/-- The part of a written record is what was written under its name. -/
theorem part_eq_of_lookup {names : List String} {members : List (String × Json)} {name : String}
    {part value : Json} (distinct : (Json.object members).DistinctKeys)
    (wrote : members.lookup name = some value)
    (holds : HasPart names (.object members) name part) : part = value := by
  cases holds with
  | member among =>
      have held := (lookup_eq_some_iff_mem distinct.keys_nodup).mpr among
      exact Option.some.inj (held.symm.trans wrote)

theorem pricesApart_announcement (solution : Announcement) :
    PricesApart (announcement.encode solution) := by
  intro prices holds
  have lossless : announcement.Lossless 3 := announcement_lossless
  have is := part_eq_of_lookup (lossless.fits solution).distinctKeys rfl holds
  rw [is]
  exact addressesApart_table .replaces amount solution.prices

theorem pricesApart_announcements (announced : Announcements) :
    ∀ solutions, HasPart ["solutions"] (announcements.encode announced) "solutions" solutions →
      EachItem PricesApart solutions := by
  intro solutions holds
  have lossless : announcements.Lossless 5 := announcements_lossless
  have is : solutions = announcement.list.encode announced.solutions :=
    part_eq_of_lookup (lossless.fits announced).distinctKeys rfl holds
  rw [is]
  intro item among
  obtain ⟨solution, _, rfl⟩ := List.mem_map.mp among
  exact pricesApart_announcement solution

namespace Format

/-- The codec of a format that is also written; the others are only ever read. -/
def codec? : (format : Format) → Option (Codec format.Payload)
  | .auction => some Wire.auction
  | .order => some Wire.order
  | .creationTime => some Wire.creationTime
  | .sellSource => some Wire.sellSource
  | .buyDestination => some Wire.buyDestination
  | .hook => some Wire.hook
  | .signingScheme => some Wire.signingScheme
  | .side => some Wire.side
  | .orderClass => some Wire.orderClass
  | .feePolicy => some Wire.feePolicy
  | .quotedTerms => some Wire.quotedTerms
  | .token => some Wire.token
  | .liquidity => some Wire.liquidity
  | .reserve => some Wire.reserve
  | .announcements => some Wire.announcements
  | .announcement => some Wire.announcement
  | .orderUid => some Wire.orderUid
  | .trade => some Wire.trade
  | .fulfillment => some (.record "Fulfillment" fulfillmentFields)
  | .interaction => some Wire.interaction
  | .swap => some (.record "LiquidityInteraction" swapFields)
  | .revealRequest => some Wire.revealRequest
  | .calldata => some Wire.calldata
  | .revealResponse => some Wire.revealResponse
  | .settleRequest => some Wire.settleRequest
  | .settleResponse => some Wire.settleResponse
  | .refusal => some Wire.refusal
  | .notification | .solutionReference | .notificationKind | .transaction | .quoteRequest => none

/-- A source of liquidity is the same if its fee is the same number. -/
def SameLiquidity (left right : PostedLiquidity) : Prop :=
  { left with fee := right.fee } = right ∧ left.fee.toRat = right.fee.toRat

/-- An auction is the same if its liquidity is. -/
def SameAuction (left right : PostedAuction) : Prop :=
  { left with liquidity := right.liquidity } = right ∧
    List.Forall₂ SameLiquidity left.liquidity right.liquidity

/-- Payloads are compared as they are, but for the fees of liquidity. -/
def Same : (format : Format) → format.Payload → format.Payload → Prop
  | .auction => SameAuction
  | .liquidity => SameLiquidity
  | _ => Eq

/-- What a payload is read back as. -/
def restored : (format : Format) → format.Payload → format.Payload
  | .auction => restoredAuction
  | .liquidity => restoredLiquidity
  | _ => id

theorem same_restoredLiquidity (liquidity : PostedLiquidity) :
    SameLiquidity (restoredLiquidity liquidity) liquidity :=
  ⟨rfl, Decimal.Scaled.toRat_restored liquidity.fee⟩

theorem same_restored (format : Format) (value : format.Payload) :
    format.Same (format.restored value) value := by
  cases format with
  | auction =>
      refine ⟨rfl, List.forall₂_map_left_iff.mpr (List.forall₂_same.mpr fun liquidity _ => ?_)⟩
      exact same_restoredLiquidity liquidity
  | liquidity => exact same_restoredLiquidity value
  | _ => rfl

/-- The most containers that stand inside each other in what is written. -/
def writtenDepth : Nat := 6

variable {format : Format} {codec : Codec format.Payload}

theorem codec?_restores (twoWay : format.codec? = some codec) :
    codec.Restores writtenDepth format.restored := by
  cases format with
  | auction => cases twoWay; exact auction_restores
  | order => cases twoWay; exact order_lossless
  | creationTime => cases twoWay; exact creationTime_lossless
  | sellSource => cases twoWay; exact sellSource_lossless
  | buyDestination => cases twoWay; exact buyDestination_lossless
  | hook => cases twoWay; exact hook_lossless
  | signingScheme => cases twoWay; exact signingScheme_lossless
  | side => cases twoWay; exact side_lossless
  | orderClass => cases twoWay; exact orderClass_lossless
  | feePolicy => cases twoWay; exact feePolicy_lossless
  | quotedTerms => cases twoWay; exact quotedTerms_lossless
  | token => cases twoWay; exact token_lossless
  | liquidity => cases twoWay; exact liquidity_restores
  | reserve => cases twoWay; exact reserve_lossless
  | announcements => cases twoWay; exact announcements_lossless
  | announcement => cases twoWay; exact announcement_lossless
  | orderUid => cases twoWay; exact fixedBytes_lossless 56
  | trade => cases twoWay; exact trade_lossless
  | fulfillment =>
      cases twoWay
      exact (fulfillmentFields_restore _).record "Fulfillment" (by decide)
  | interaction => cases twoWay; exact interaction_lossless
  | swap =>
      cases twoWay
      exact (swapFields_restore _).record "LiquidityInteraction" (by decide)
  | revealRequest => cases twoWay; exact revealRequest_lossless
  | calldata => cases twoWay; exact calldata_lossless
  | revealResponse => cases twoWay; exact revealResponse_lossless
  | settleRequest => cases twoWay; exact settleRequest_lossless
  | settleResponse => cases twoWay; exact settleResponse_lossless
  | refusal => cases twoWay; exact refusal_lossless
  | notification | solutionReference | notificationKind | transaction | quoteRequest =>
      cases twoWay

theorem decode_of_codec? (twoWay : format.codec? = some codec) : codec.decode = format.decoder := by
  cases format <;> cases twoWay <;> rfl

theorem keysApart_encode (twoWay : format.codec? = some codec) (value : format.Payload) :
    format.KeysApart (codec.encode value) := by
  cases format with
  | announcement => cases twoWay; exact pricesApart_announcement value
  | announcements => cases twoWay; exact pricesApart_announcements value
  | _ => trivial

/-- Every payload that is written comes back from the value that is written for it, and
from every text of that value, in whatever order the members of its objects are printed, as
far as the doubles in it are the ones that their own texts denote. -/
theorem decode_encode (twoWay : format.codec? = some codec) (value : format.Payload) :
    ∃ result, format.Same result value ∧
      decodeValue codec.decode (codec.encode value) = .ok result ∧
      ∀ written, (codec.encode value).Reordered written →
        (∀ x ∈ written.reals, x.ReadsBack) →
        decodeText codec.decode (Text.Utf8.ofString written.print) = .ok result := by
  have restores := codec?_restores twoWay
  have fits := restores.fits value
  have read : format.decoder .text (codec.encode value).toDocument = .ok (format.restored value) := by
    rw [← decode_of_codec? twoWay]
    exact Decoder.outcome?_eq_some_iff.mp (restores.reads .text value)
  have alike : Medium.text.Alike .value := iff_of_false nofun nofun
  have again : ∀ medium written, Medium.text.Alike medium →
      (codec.encode value).Reordered written →
      format.decoder medium written.toDocument = .ok (format.restored value) :=
    fun medium written alike reordered =>
      (format.decode_iff_of_reordered alike fits.distinctKeys (keysApart_encode twoWay value)
        reordered _).mp read
  rw [decode_of_codec? twoWay]
  refine ⟨format.restored value, format.same_restored value, ?_, ?_⟩
  · exact again .value _ alike fits.distinctKeys.reordered_sorted
  · intro written reordered back
    rw [decodeText_of_spells _ ((fits.reordered reordered).spells_print (by decide) back)]
    exact again .text written (.refl .text) reordered

theorem volume_fee_comes_back :
    Format.feePolicy.codec? = some Wire.feePolicy ∧ Binary64.half.ReadsBack ∧
    decodeValue Wire.feePolicy.decode (Wire.feePolicy.encode (.volume .half)) =
      .ok (.volume .half) ∧
    decodeText Wire.feePolicy.decode
      (Text.Utf8.ofString (Wire.feePolicy.encode (.volume .half)).print) =
      .ok (.volume .half) := by
  have back : ∀ x ∈ [Binary64.half], x.ReadsBack := by
    intro x among
    rw [List.mem_singleton.mp among]
    exact Binary64.half_readsBack
  obtain ⟨result, same, fromValue, fromText⟩ :=
    decode_encode (rfl : Format.feePolicy.codec? = some Wire.feePolicy) (.volume .half)
  cases same
  exact ⟨rfl, Binary64.half_readsBack, fromValue, fromText _ (.refl _) back⟩

end Format

end BatchAuction.Wire
