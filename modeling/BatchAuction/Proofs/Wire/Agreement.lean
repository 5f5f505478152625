import BatchAuction.Proofs.Wire.Stability
import BatchAuction.Wire.Announcement
import BatchAuction.Wire.Notification
import BatchAuction.Wire.Request

/-!
# Reading bytes and reading values

Every format of the wire makes the same of a text and of the value that the text spells,
because its decoder is stable: the value is handed on with its members sorted, which is
one of the reorderings of what is written. A solution is the only format that keeps a
later entry in place of an earlier one, in its prices, where the text decides which of two
keys for one address is the later.
-/

set_option autoImplicit false

namespace BatchAuction.Wire

open Json Fields

/-!
## Plain formats
-/

namespace Codec

theorem text_stable : text.decode.Stable := (Decoder.textAs_plain .text).stable

theorem boolean_stable : boolean.decode.Stable := Decoder.boolean_plain.stable

theorem real_stable : real.decode.Stable := Decoder.real_plain.stable

theorem unsigned64_stable : unsigned64.decode.Stable :=
  ((Decoder.integer_plain _ _ _).map _).stable

theorem unsigned32_stable : unsigned32.decode.Stable :=
  ((Decoder.integer_plain _ _ _).map _).stable

theorem unsigned8_stable : unsigned8.decode.Stable :=
  ((Decoder.integer_plain _ _ _).map _).stable

theorem signed64_stable : signed64.decode.Stable := ((Decoder.integer_plain _ _ _).map _).stable

theorem unsignedText_stable : unsignedText.decode.Stable :=
  ((Decoder.textAs_plain .text).refine _).stable

theorem signedText_stable : signedText.decode.Stable :=
  ((Decoder.textAs_plain .text).refine _).stable

theorem solutionId_stable : solutionId.decode.Stable :=
  Decoder.either_stable unsigned64_stable unsignedText_stable

theorem auctionReference_stable : auctionReference.decode.Stable :=
  Decoder.either_stable signed64_stable signedText_stable

theorem auctionId_stable : auctionId.decode.Stable :=
  Decoder.either_stable signedText_stable signed64_stable

theorem amount_stable : amount.decode.Stable := ((Decoder.textAs_plain .amount).refine _).stable

theorem bytes_stable : bytes.decode.Stable := ((Decoder.textAs_plain .text).refine _).stable

theorem fixedBytes_stable (size : Nat) : (fixedBytes size).decode.Stable :=
  ((Decoder.textAs_plain .text).refine _).stable

theorem address_stable : address.decode.Stable := ((Decoder.textAs_plain .text).refine _).stable

theorem timestamp_stable : timestamp.decode.Stable :=
  ((Decoder.textAs_plain .timestamp).refine _).stable

theorem scaled_stable : scaled.decode.Stable := Decoder.readScaled_plain.stable

theorem addressSet_stable : addressSet.decode.Stable := address_stable.list.map _

end Codec

/-!
## Auctions
-/

theorem creationTime_stable : creationTime.decode.Stable := by
  refine Decoder.firstOf_stable _ ?_
  simp only [List.forall_mem_cons, List.not_mem_nil, false_imp_iff, implies_true, and_true]
  exact ⟨Codec.unsigned64_stable.map _, Codec.text_stable.map _⟩

theorem hook_stable : hook.decode.Stable :=
  (pure_stable _)
    |>.seq (required_stable "target" _ Codec.address_stable)
    |>.seq (required_stable "value" _ Codec.amount_stable)
    |>.seq (required_stable "callData" _ Codec.bytes_stable)
    |>.decoder _

theorem quotedTerms_stable : quotedTerms.decode.Stable :=
  (pure_stable _)
    |>.seq (required_stable "sellAmount" _ Codec.amount_stable)
    |>.seq (required_stable "buyAmount" _ Codec.amount_stable)
    |>.seq (required_stable "fee" _ Codec.amount_stable)
    |>.seq (optional_stable "solver" _ Codec.address_stable)
    |>.decoder _

theorem feePolicy_stable : feePolicy.decode.Stable := by
  have surplus := (pure_stable (σ := Binary64 × Binary64) FeePolicy.surplus)
    |>.seq (required_stable "factor" (·.1) Codec.real_stable)
    |>.seq (required_stable "maxVolumeFactor" (·.2) Codec.real_stable)
  have priceImprovement :=
    (pure_stable (σ := Binary64 × Binary64 × QuotedTerms) FeePolicy.priceImprovement)
    |>.seq (required_stable "factor" (·.1) Codec.real_stable)
    |>.seq (required_stable "maxVolumeFactor" (·.2.1) Codec.real_stable)
    |>.seq (required_stable "quote" (·.2.2) quotedTerms_stable)
  have volume := (pure_stable (σ := Binary64) FeePolicy.volume)
    |>.seq (required_stable "factor" id Codec.real_stable)
  refine Decoder.union_stable _ ?_
  simp only [List.forall_mem_cons, List.not_mem_nil, false_imp_iff, implies_true, and_true]
  exact ⟨surplus.decoder _, priceImprovement.decoder _, volume.decoder _⟩

theorem order_stable : order.decode.Stable :=
  (pure_stable _)
    |>.seq (required_stable "uid" _ (Codec.fixedBytes_stable 56))
    |>.seq (required_stable "sellToken" _ Codec.address_stable)
    |>.seq (required_stable "buyToken" _ Codec.address_stable)
    |>.seq (required_stable "sellAmount" _ Codec.amount_stable)
    |>.seq (required_stable "buyAmount" _ Codec.amount_stable)
    |>.seq (required_stable "fullSellAmount" _ Codec.amount_stable)
    |>.seq (required_stable "fullBuyAmount" _ Codec.amount_stable)
    |>.seq (required_stable "validTo" _ Codec.unsigned32_stable)
    |>.seq (required_stable "kind" _ (Decoder.oneOf_stable _))
    |>.seq (optional_stable "receiver" _ Codec.address_stable)
    |>.seq (required_stable "owner" _ Codec.address_stable)
    |>.seq (required_stable "partiallyFillable" _ Codec.boolean_stable)
    |>.seq (optional_stable "executed" _ Codec.amount_stable)
    |>.seq (optional_stable "created" _ creationTime_stable)
    |>.seq (defaulted_stable "preInteractions" _ _ hook_stable.list)
    |>.seq (defaulted_stable "postInteractions" _ _ hook_stable.list)
    |>.seq (required_stable "sellTokenSource" _ (Decoder.oneOf_stable _))
    |>.seq (required_stable "buyTokenDestination" _ (Decoder.oneOf_stable _))
    |>.seq (required_stable "class" _ (Decoder.oneOf_stable _))
    |>.seq (required_stable "appData" _ (Codec.fixedBytes_stable 32))
    |>.seq (required_stable "signingScheme" _ (Decoder.oneOf_stable _))
    |>.seq (required_stable "signature" _ Codec.bytes_stable)
    |>.seq (defaulted_stable "protocolFees" _ _ feePolicy_stable.list)
    |>.seq (optional_stable "quote" _ quotedTerms_stable)
    |>.decoder _

theorem token_stable : token.decode.Stable :=
  (pure_stable _)
    |>.seq (optional_stable "decimals" _ Codec.unsigned8_stable)
    |>.seq (optional_stable "symbol" _ Codec.text_stable)
    |>.seq (optional_stable "referencePrice" _ Codec.amount_stable)
    |>.seq (required_stable "availableBalance" _ Codec.amount_stable)
    |>.seq (required_stable "trusted" _ Codec.boolean_stable)
    |>.decoder _

theorem reserve_stable : reserve.decode.Stable :=
  (pure_stable _) |>.seq (required_stable "balance" _ Codec.amount_stable) |>.decoder _

theorem liquidity_stable : liquidity.decode.Stable :=
  (pure_stable _)
    |>.seq (required_stable "id" _ Codec.text_stable)
    |>.seq (required_stable "address" _ Codec.address_stable)
    |>.seq (required_stable "router" _ Codec.address_stable)
    |>.seq (required_stable "fee" _ Codec.scaled_stable)
    |>.seq (required_stable "gasEstimate" _ Codec.amount_stable)
    |>.seq (required_stable "kind" _ Codec.text_stable)
    |>.seq (required_stable "tokens" _ (Decoder.table_refused_stable reserve_stable))
    |>.decoder _

theorem auction_stable : auction.decode.Stable :=
  (pure_stable _)
    |>.seq (defaulted_stable "id" _ _ Codec.auctionId_stable.option)
    |>.seq (required_stable "tokens" _ (Decoder.table_refused_stable token_stable))
    |>.seq (required_stable "orders" _ order_stable.list)
    |>.seq (required_stable "liquidity" _ liquidity_stable.list)
    |>.seq (required_stable "effectiveGasPrice" _ Codec.amount_stable)
    |>.seq (required_stable "deadline" _ Codec.timestamp_stable)
    |>.seq (defaulted_stable "surplusCapturingJitOrderOwners" _ _ Codec.address_stable.list)
    |>.decoder _

/-!
## Announced solutions
-/

theorem fulfillmentFields_stable : fulfillmentFields.Stable :=
  (pure_stable _)
    |>.seq (required_stable "order" _ (Codec.fixedBytes_stable 56))
    |>.seq (required_stable "executedAmount" _ Codec.amount_stable)
    |>.seq (optional_stable "fee" _ Codec.amount_stable)

theorem trade_stable : trade.decode.Stable := by
  refine Decoder.union_stable _ ?_
  rw [List.forall_mem_singleton]
  exact (fulfillmentFields_stable.decoder _).map _

theorem swapFields_stable : swapFields.Stable :=
  (pure_stable _)
    |>.seq (required_stable "internalize" _ Codec.boolean_stable)
    |>.seq (required_stable "id" _ Codec.text_stable)
    |>.seq (required_stable "inputToken" _ Codec.address_stable)
    |>.seq (required_stable "outputToken" _ Codec.address_stable)
    |>.seq (required_stable "inputAmount" _ Codec.amount_stable)
    |>.seq (required_stable "outputAmount" _ Codec.amount_stable)

theorem interaction_stable : interaction.decode.Stable := by
  refine Decoder.union_stable _ ?_
  rw [List.forall_mem_singleton]
  exact (swapFields_stable.decoder _).map _

/-- The members of a solution in the order of declaration, which is their order in a
list. -/
def solutionNames : List String := ["id", "prices", "trades", "interactions", "gas"]

/-- The keys of the prices of a solution are different addresses. -/
def PricesApart (solution : Json) : Prop :=
  ∀ prices, HasPart solutionNames solution "prices" prices → AddressesApart prices

theorem announcement_stableOn : announcement.decode.StableOn PricesApart := by
  have trades : trade.list.decode.Stable := trade_stable.list
  have interactions : interaction.list.decode.Stable := interaction_stable.list
  have fields := (pure_stableOn (σ := Announcement) Announcement.mk
      fun name part => name = "prices" → AddressesApart part)
    |>.seq (required_stableOn "id" (·.id) (Codec.unsigned64_stable.stableOn _))
    |>.seq (required_stableOn "prices" (·.prices)
      ((Decoder.table_replaces_stableOn Codec.amount_stable).mono fun _ apart => apart rfl))
    |>.seq (required_stableOn "trades" (·.trades) (trades.stableOn _))
    |>.seq (required_stableOn "interactions" (·.interactions) (interactions.stableOn _))
    |>.seq ((optional_stable "gas" (·.gas) Codec.unsigned64_stable).stableOn _)
  exact (fields.decoder _).mono fun value apart name part held same => by
    subst same
    exact apart part held

theorem announcements_stableOn : announcements.decode.StableOn fun value =>
    ∀ solutions, HasPart ["solutions"] value "solutions" solutions →
      EachItem PricesApart solutions := by
  have solutions : announcement.list.decode.StableOn (EachItem PricesApart) :=
    announcement_stableOn.list
  have fields := (pure_stableOn (σ := Announcements) Announcements.mk
      fun name part => name = "solutions" → EachItem PricesApart part)
    |>.seq (required_stableOn "solutions" (·.solutions)
      (solutions.mono fun _ apart => apart rfl))
  exact (fields.decoder _).mono fun value apart name part held same => by
    subst same
    exact apart part held

/-!
## Requests, answers and notifications
-/

theorem revealRequest_stable : revealRequest.decode.Stable :=
  (pure_stable _)
    |>.seq (required_stable "solutionId" _ Codec.solutionId_stable)
    |>.seq (required_stable "auctionId" _ Codec.auctionReference_stable)
    |>.decoder _

theorem calldata_stable : calldata.decode.Stable :=
  (pure_stable _)
    |>.seq (required_stable "internalized" _ Codec.bytes_stable)
    |>.seq (required_stable "uninternalized" _ Codec.bytes_stable)
    |>.decoder _

theorem revealResponse_stable : revealResponse.decode.Stable :=
  (pure_stable _) |>.seq (required_stable "calldata" _ calldata_stable) |>.decoder _

theorem settleRequest_stable : settleRequest.decode.Stable :=
  (pure_stable _)
    |>.seq (required_stable "solutionId" _ Codec.solutionId_stable)
    |>.seq (required_stable "submissionDeadlineLatestBlock" _ Codec.unsigned64_stable)
    |>.seq (required_stable "auctionId" _ Codec.auctionReference_stable)
    |>.decoder _

theorem settleResponse_stable : settleResponse.decode.Stable := (pure_stable _).decoder _

theorem refusal_stable : refusal.decode.Stable :=
  (pure_stable _)
    |>.seq (required_stable "kind" _ Codec.text_stable)
    |>.seq (required_stable "description" _ Codec.text_stable)
    |>.decoder _

theorem quoteRequest_stable : quoteRequest.decode.Stable :=
  (pure_stable _)
    |>.seq (required_stable "sellToken" _ Codec.address_stable)
    |>.seq (required_stable "buyToken" _ Codec.address_stable)
    |>.seq (required_stable "kind" _ (Decoder.oneOf_stable _))
    |>.seq (required_stable "amount" _ Codec.amount_stable)
    |>.seq (required_stable "deadline" _ Codec.timestamp_stable)
    |>.decoder _

theorem solutionReference_stable : solutionReference.Stable := by
  refine Decoder.firstOf_stable _ ?_
  simp only [List.forall_mem_cons, List.not_mem_nil, false_imp_iff, implies_true, and_true]
  exact ⟨Codec.solutionId_stable.map _, Codec.unsigned64_stable.list.map _⟩

theorem transaction_stable : transaction.decode.Stable :=
  (pure_stable _)
    |>.seq (required_stable "from" _ Codec.address_stable)
    |>.seq (required_stable "to" _ Codec.address_stable)
    |>.seq (required_stable "input" _ Codec.bytes_stable)
    |>.seq (required_stable "value" _ Codec.amount_stable)
    |>.decoder _

theorem given_stable {α : Type} (name : String) {decode : Decoder α} (stable : decode.Stable) :
    (given name decode).Stable :=
  member_stableOn name none _ stable

theorem notificationKinds_stable : ∀ kind ∈ notificationKinds, kind.2.Stable := by
  have simulationFailed := (pure_stable (σ := Unit) NotificationKind.simulationFailed)
    |>.seq (given_stable "block" Codec.unsigned64_stable)
    |>.seq (given_stable "tx" transaction_stable)
    |>.seq (member_stableOn "succeededOnce" (some false) (fun _ => []) Codec.boolean_stable)
  have missingPrice := (pure_stable (σ := Unit) NotificationKind.missingPrice)
    |>.seq (given_stable "tokenAddress" Codec.address_stable)
  have nonBufferable := (pure_stable (σ := Unit) NotificationKind.nonBufferableTokensUsed)
    |>.seq (given_stable "tokens" Codec.addressSet_stable)
  have insufficient := (pure_stable (σ := Unit) NotificationKind.solverAccountInsufficientBalance)
    |>.seq (given_stable "required" Codec.amount_stable)
  have success := (pure_stable (σ := Unit) NotificationKind.success)
    |>.seq (given_stable "transaction" (Codec.fixedBytes_stable 32))
  have revert := (pure_stable (σ := Unit) NotificationKind.revert)
    |>.seq (given_stable "transaction" (Codec.fixedBytes_stable 32))
  have driverError := (pure_stable (σ := Unit) NotificationKind.driverError)
    |>.seq (given_stable "reason" Codec.text_stable)
  have banned := (pure_stable (σ := Unit) NotificationKind.banned)
    |>.seq (given_stable "reason" Codec.text_stable)
    |>.seq (given_stable "until" Codec.unsigned64_stable)
  have plain := fun kind : NotificationKind => Decoder.constant_stable kind
  unfold notificationKinds
  simp only [List.forall_mem_cons, List.not_mem_nil, false_imp_iff, implies_true, and_true]
  exact ⟨plain _, plain _, plain _, simulationFailed.decoder _, plain _, missingPrice.decoder _,
    plain _, nonBufferable.decoder _, insufficient.decoder _, success.decoder _,
    revert.decoder _, driverError.decoder _, plain _, plain _, plain _, banned.decoder _⟩

theorem notificationKind_stable : (Decoder.union "Kind" notificationKinds).Stable :=
  Decoder.union_stable _ notificationKinds_stable

theorem notification_stable : notification.Stable := by
  have fields := (pure_stable (σ := Unit)
      fun auctionId solution kind => Notification.mk auctionId solution kind)
    |>.seq (member_stableOn "auctionId" (some none) (fun _ => []) Codec.auctionId_stable.option)
    |>.seq (member_stableOn "solutionId" (some none) (fun _ => []) solutionReference_stable.option)
  exact Decoder.flattened_stable _ fields notificationKind_stable

/-!
## All formats
-/

/-- The formats that can be read. -/
inductive Format where
  | auction
  | order
  | creationTime
  | sellSource
  | buyDestination
  | hook
  | signingScheme
  | side
  | orderClass
  | feePolicy
  | quotedTerms
  | token
  | liquidity
  | reserve
  | announcements
  | announcement
  | orderUid
  | trade
  | fulfillment
  | interaction
  | swap
  | notification
  | solutionReference
  | notificationKind
  | transaction
  | quoteRequest
  | revealRequest
  | calldata
  | revealResponse
  | settleRequest
  | settleResponse
  | refusal
deriving DecidableEq, Repr

namespace Format

/-- What is read. -/
def Payload : Format → Type
  | .auction => PostedAuction
  | .order => PostedOrder
  | .creationTime => CreationTime
  | .sellSource => SellSource
  | .buyDestination => BuyDestination
  | .hook => ContractCall
  | .signingScheme => SigningScheme
  | .side => Side
  | .orderClass => OrderClass
  | .feePolicy => FeePolicy
  | .quotedTerms => QuotedTerms
  | .token => Token
  | .liquidity => PostedLiquidity
  | .reserve => Reserve
  | .announcements => Announcements
  | .announcement => Announcement
  | .orderUid => OrderUid
  | .trade => AnnouncedTrade
  | .fulfillment => AnnouncedFulfillment
  | .interaction => AnnouncedInteraction
  | .swap => AnnouncedSwap
  | .notification => Notification
  | .solutionReference => SolutionReference
  | .notificationKind => NotificationKind
  | .transaction => Transaction
  | .quoteRequest => QuoteRequest
  | .revealRequest => RevealRequest
  | .calldata => Calldata
  | .revealResponse => RevealResponse
  | .settleRequest => SettleRequest
  | .settleResponse => SettleResponse
  | .refusal => Refusal

/-- How it is read. -/
def decoder : (format : Format) → Decoder format.Payload
  | .auction => Wire.auction.decode
  | .order => Wire.order.decode
  | .creationTime => Wire.creationTime.decode
  | .sellSource => Wire.sellSource.decode
  | .buyDestination => Wire.buyDestination.decode
  | .hook => Wire.hook.decode
  | .signingScheme => Wire.signingScheme.decode
  | .side => Wire.side.decode
  | .orderClass => Wire.orderClass.decode
  | .feePolicy => Wire.feePolicy.decode
  | .quotedTerms => Wire.quotedTerms.decode
  | .token => Wire.token.decode
  | .liquidity => Wire.liquidity.decode
  | .reserve => Wire.reserve.decode
  | .announcements => Wire.announcements.decode
  | .announcement => Wire.announcement.decode
  | .orderUid => Wire.orderUid.decode
  | .trade => Wire.trade.decode
  | .fulfillment => fulfillmentFields.decoder (.record "Fulfillment")
  | .interaction => Wire.interaction.decode
  | .swap => swapFields.decoder (.record "LiquidityInteraction")
  | .notification => Wire.notification
  | .solutionReference => Wire.solutionReference
  | .notificationKind => .union "Kind" notificationKinds
  | .transaction => Wire.transaction.decode
  | .quoteRequest => Wire.quoteRequest.decode
  | .revealRequest => Wire.revealRequest.decode
  | .calldata => Wire.calldata.decode
  | .revealResponse => Wire.revealResponse.decode
  | .settleRequest => Wire.settleRequest.decode
  | .settleResponse => Wire.settleResponse.decode
  | .refusal => Wire.refusal.decode

/-- No two keys of a table that lets a later entry replace an earlier one are texts of one
address. Such tables are the prices of solutions. -/
def KeysApart : Format → Json → Prop
  | .announcement, value => PricesApart value
  | .announcements, value => ∀ solutions, HasPart ["solutions"] value "solutions" solutions →
      EachItem PricesApart solutions
  | _, _ => True

theorem stableOn (format : Format) : format.decoder.StableOn format.KeysApart := by
  cases format with
  | auction => exact auction_stable
  | order => exact order_stable
  | creationTime => exact creationTime_stable
  | hook => exact hook_stable
  | sellSource | buyDestination | signingScheme | side | orderClass =>
      exact Decoder.oneOf_stable _
  | feePolicy => exact feePolicy_stable
  | quotedTerms => exact quotedTerms_stable
  | token => exact token_stable
  | liquidity => exact liquidity_stable
  | reserve => exact reserve_stable
  | announcements => exact announcements_stableOn
  | announcement => exact announcement_stableOn
  | orderUid => exact Codec.fixedBytes_stable 56
  | trade => exact trade_stable
  | fulfillment => exact fulfillmentFields_stable.decoder _
  | interaction => exact interaction_stable
  | swap => exact swapFields_stable.decoder _
  | notification => exact notification_stable
  | solutionReference => exact solutionReference_stable
  | notificationKind => exact notificationKind_stable
  | transaction => exact transaction_stable
  | quoteRequest => exact quoteRequest_stable
  | revealRequest => exact revealRequest_stable
  | calldata => exact calldata_stable
  | revealResponse => exact revealResponse_stable
  | settleRequest => exact settleRequest_stable
  | settleResponse => exact settleResponse_stable
  | refusal => exact refusal_stable

variable {bytes otherBytes : List UInt8} {value written other : Json}

/-- A text and a reordering of it, read or held in memory, decode alike. -/
theorem decode_iff_of_reordered (format : Format) {first second : Medium}
    (alike : first.Alike second) (distinct : written.DistinctKeys)
    (apart : format.KeysApart written) (reordered : written.Reordered other)
    (result : format.Payload) :
    format.decoder first written.toDocument = .ok result ↔
      format.decoder second other.toDocument = .ok result := by
  rw [← Decoder.outcome?_eq_some_iff, ← Decoder.outcome?_eq_some_iff,
    format.stableOn alike distinct apart reordered]

/-- Bytes that are accepted as a plain value decode just if the value does, and to the
same, where no object repeats a key and no address has two prices. So do bytes that spell
the same with the members of any objects in another order. -/
theorem text_and_value_agree (format : Format)
    (accepted : decodeText anyValue bytes = .ok value)
    (distinct : ∀ written, Spells bytes written → written.DistinctKeys)
    (apart : ∀ written, Spells bytes written → format.KeysApart written) :
    (∀ result, decodeText format.decoder bytes = .ok result ↔
      decodeValue format.decoder value = .ok result) ∧
    ∀ otherBytes written other, Spells bytes written → Spells otherBytes other →
      written.Reordered other → ∀ result, decodeText format.decoder bytes = .ok result ↔
        decodeText format.decoder otherBytes = .ok result := by
  constructor
  · intro result
    obtain ⟨written, spelled, rfl⟩ := decodeText_anyValue_iff.mp accepted
    have distinct := distinct written spelled
    -- A plain value is handed out sorted, and what is taken up as a value is sorted again.
    have once := distinct.reordered_sorted
    have twice := once.trans (once.distinctKeys distinct).reordered_sorted
    have alike : Medium.text.Alike .value := iff_of_false nofun nofun
    rw [decodeText_of_spells _ spelled]
    exact format.decode_iff_of_reordered alike distinct (apart written spelled) twice result
  · intro otherBytes written other spelled otherSpelled reordered result
    rw [decodeText_of_spells _ spelled, decodeText_of_spells _ otherSpelled]
    exact format.decode_iff_of_reordered (.refl .text) (distinct written spelled)
      (apart written spelled) reordered result

/-- A fee policy with its tag behind the other member. -/
def lateTag : Json := .object [("factor", .number (.real .half)), ("kind", .text "volume")]

def earlyTag : Json := .object [("kind", .text "volume"), ("factor", .number (.real .half))]

theorem lateTag_fits : lateTag.Fits 1 := by
  refine .object (by decide) fun member among => ?_
  rcases List.mem_cons.mp among with rfl | among
  · exact .real .half
  · rw [List.mem_singleton.mp among]
    exact .text "volume"

theorem lateTag_reordered : lateTag.Reordered earlyTag :=
  .object (.cons _ (.number _) (.cons _ (.text _) .nil)) (.swap ..)

theorem late_tag_agrees :
    let bytes := Text.Utf8.ofString lateTag.print
    let others := Text.Utf8.ofString earlyTag.print
    decodeText anyValue bytes = .ok lateTag.sorted ∧
    (∀ result, decodeText Wire.feePolicy.decode bytes = .ok result ↔
      decodeValue Wire.feePolicy.decode lateTag.sorted = .ok result) ∧
    ∀ result, decodeText Wire.feePolicy.decode bytes = .ok result ↔
      decodeText Wire.feePolicy.decode others = .ok result := by
  intro bytes others
  have back : ∀ x ∈ [Binary64.half], x.ReadsBack := by
    intro x among
    rw [List.mem_singleton.mp among]
    exact Binary64.half_readsBack
  have spelled : Spells bytes lateTag := lateTag_fits.spells_print (by decide) back
  have otherSpelled : Spells others earlyTag :=
    (lateTag_fits.reordered lateTag_reordered).spells_print (by decide) back
  have accepted : decodeText anyValue bytes = .ok lateTag.sorted :=
    decodeText_anyValue_iff.mpr ⟨lateTag, spelled, rfl⟩
  have agree := text_and_value_agree .feePolicy accepted
    (fun _ other => spells_unique spelled other ▸ lateTag_fits.distinctKeys) fun _ _ => trivial
  exact ⟨accepted, agree.1,
    agree.2 others lateTag earlyTag spelled otherSpelled lateTag_reordered⟩

end Format

end BatchAuction.Wire
