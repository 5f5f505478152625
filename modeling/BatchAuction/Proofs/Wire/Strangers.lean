import BatchAuction.Proofs.Wire.Agreement
import BatchAuction.Proofs.Wire.Overlooking

/-!
# Members that no format asks for

The shape of each format names the members that its objects are read by, down to the last
object inside of it. Whatever else stands in such an object, the same is made of the whole,
in a text as long as it does not nest too deep, and in memory.
-/

set_option autoImplicit false

namespace BatchAuction.Json

mutual

/-- How many containers stand inside each other at most. -/
def nesting : Json → Nat
  | .null | .boolean _ | .number _ | .text _ => 0
  | .list items => itemNesting items + 1
  | .object members => memberNesting members + 1

def itemNesting : List Json → Nat
  | [] => 0
  | item :: rest => max (nesting item) (itemNesting rest)

def memberNesting : List (String × Json) → Nat
  | [] => 0
  | (_, value) :: rest => max (nesting value) (memberNesting rest)

end

mutual

/-- Where there is room for all its containers a value is the document it is in memory. -/
theorem documentAt_of_nesting : ∀ {depth : Nat} (value : Json),
    depth + value.nesting ≤ maxDepth → value.documentAt depth = value.toDocument
  | _, .null, _ | _, .boolean _, _ | _, .number _, _ | _, .text _, _ => rfl
  | depth, .list items, room => by
      rw [nesting] at room
      have shallow : decide (maxDepth ≤ depth) = false := decide_eq_false (by omega)
      rw [documentAt, toDocument, shallow, itemDocumentsAt_of_nesting items (by omega)]
  | depth, .object members, room => by
      rw [nesting] at room
      have shallow : decide (maxDepth ≤ depth) = false := decide_eq_false (by omega)
      rw [documentAt, toDocument, shallow, memberDocumentsAt_of_nesting members (by omega)]

theorem itemDocumentsAt_of_nesting : ∀ {depth : Nat} (items : List Json),
    depth + itemNesting items ≤ maxDepth → itemDocumentsAt depth items = itemDocuments items
  | _, [], _ => rfl
  | depth, item :: rest, room => by
      rw [itemNesting] at room
      rw [itemDocumentsAt, itemDocuments, documentAt_of_nesting item (by omega),
        itemDocumentsAt_of_nesting rest (by omega)]

theorem memberDocumentsAt_of_nesting : ∀ {depth : Nat} (members : List (String × Json)),
    depth + memberNesting members ≤ maxDepth →
    memberDocumentsAt depth members = memberDocuments members
  | _, [], _ => rfl
  | depth, (_, value) :: rest, room => by
      rw [memberNesting] at room
      rw [memberDocumentsAt, memberDocuments, documentAt_of_nesting value (by omega),
        memberDocumentsAt_of_nesting rest (by omega)]

end

end BatchAuction.Json

namespace BatchAuction.Wire

open Json Fields Decoder Shape

/-!
## Auctions
-/

def hookShape : Shape := .record (plainFields ["target", "value", "callData"])

theorem hook_overlooks : hook.decode.Overlooks hookShape :=
  (overlooks_pure _).plain.plain.plain.decoder (by decide) _

def quotedTermsShape : Shape :=
  .record (plainFields ["sellAmount", "buyAmount", "fee", "solver"])

theorem quotedTerms_overlooks : quotedTerms.decode.Overlooks quotedTermsShape :=
  (overlooks_pure _).plain.plain.plain.plain.decoder (by decide) _

def feePolicyShape : Shape := .union
  [("surplus", plainFields ["factor", "maxVolumeFactor"]),
    ("priceImprovement",
      [("factor", .plain), ("maxVolumeFactor", .plain), ("quote", quotedTermsShape)]),
    ("volume", plainFields ["factor"])]

theorem feePolicy_overlooks : feePolicy.decode.Overlooks feePolicyShape := by
  have surplus : surplusFields.Overlooks (plainFields ["factor", "maxVolumeFactor"]) :=
    (overlooks_pure _).plain.plain
  have priceImprovement : priceImprovementFields.Overlooks
      [("factor", .plain), ("maxVolumeFactor", .plain), ("quote", quotedTermsShape)] :=
    (overlooks_pure _).plain.plain.field quotedTerms_overlooks
  have volume : volumeFields.Overlooks (plainFields ["factor"]) := (overlooks_pure _).plain
  exact union_overlooks _ (.cons ⟨rfl, surplus.decoder (by decide) _⟩
    (.cons ⟨rfl, priceImprovement.decoder (by decide) _⟩
      (.cons ⟨rfl, volume.decoder (by decide) _⟩ .nil)))

def orderShape : Shape := .record <|
  plainFields ["uid", "sellToken", "buyToken", "sellAmount", "buyAmount", "fullSellAmount",
    "fullBuyAmount", "validTo", "kind", "receiver", "owner", "partiallyFillable", "executed",
    "created"] ++
  [("preInteractions", .list hookShape), ("postInteractions", .list hookShape)] ++
  plainFields ["sellTokenSource", "buyTokenDestination", "class", "appData", "signingScheme",
    "signature"] ++
  [("protocolFees", .list feePolicyShape), ("quote", quotedTermsShape)]

theorem order_overlooks : order.decode.Overlooks orderShape :=
  (overlooks_pure _).plain.plain.plain.plain.plain.plain.plain.plain.plain.plain.plain.plain.plain
    |>.plain
    |>.field hook_overlooks.list
    |>.field hook_overlooks.list
    |>.plain.plain.plain.plain.plain.plain
    |>.field feePolicy_overlooks.list
    |>.field quotedTerms_overlooks.option
    |>.decoder (by decide) _

def tokenShape : Shape :=
  .record (plainFields ["decimals", "symbol", "referencePrice", "availableBalance", "trusted"])

theorem token_overlooks : token.decode.Overlooks tokenShape :=
  (overlooks_pure _).plain.plain.plain.plain.plain.decoder (by decide) _

def reserveShape : Shape := .record (plainFields ["balance"])

theorem reserve_overlooks : reserve.decode.Overlooks reserveShape :=
  (overlooks_pure _).plain.decoder (by decide) _

def liquidityShape : Shape := .record <|
  plainFields ["id", "address", "router", "fee", "gasEstimate", "kind"] ++
  [("tokens", .table reserveShape)]

theorem liquidity_overlooks : liquidity.decode.Overlooks liquidityShape :=
  (overlooks_pure _).plain.plain.plain.plain.plain.plain
    |>.field (reserve_overlooks.table .refused)
    |>.decoder (by decide) _

def auctionShape : Shape := .record
  [("id", .plain), ("tokens", .table tokenShape), ("orders", .list orderShape),
    ("liquidity", .list liquidityShape), ("effectiveGasPrice", .plain), ("deadline", .plain),
    ("surplusCapturingJitOrderOwners", .plain)]

theorem auction_overlooks : auction.decode.Overlooks auctionShape :=
  (overlooks_pure _).plain
    |>.field (token_overlooks.table .refused)
    |>.field order_overlooks.list
    |>.field liquidity_overlooks.list
    |>.plain.plain.plain
    |>.decoder (by decide) _

/-!
## Announced solutions
-/

def fulfillmentNames : List String := ["order", "executedAmount", "fee"]

theorem fulfillmentFields_overlook : fulfillmentFields.Overlooks (plainFields fulfillmentNames) :=
  (overlooks_pure _).plain.plain.plain

def tradeShape : Shape := .union [("fulfillment", plainFields fulfillmentNames)]

theorem trade_overlooks : trade.decode.Overlooks tradeShape :=
  union_overlooks _
    (.cons ⟨rfl, (fulfillmentFields_overlook.decoder (by decide) _).map _⟩ .nil)

def swapNames : List String :=
  ["internalize", "id", "inputToken", "outputToken", "inputAmount", "outputAmount"]

theorem swapFields_overlook : swapFields.Overlooks (plainFields swapNames) :=
  (overlooks_pure _).plain.plain.plain.plain.plain.plain

def interactionShape : Shape := .union [("liquidity", plainFields swapNames)]

theorem interaction_overlooks : interaction.decode.Overlooks interactionShape :=
  union_overlooks _ (.cons ⟨rfl, (swapFields_overlook.decoder (by decide) _).map _⟩ .nil)

def announcementShape : Shape := .record
  [("id", .plain), ("prices", .plain), ("trades", .list tradeShape),
    ("interactions", .list interactionShape), ("gas", .plain)]

theorem announcement_overlooks : announcement.decode.Overlooks announcementShape :=
  (overlooks_pure _).plain.plain
    |>.field trade_overlooks.list
    |>.field interaction_overlooks.list
    |>.plain
    |>.decoder (by decide) _

def announcementsShape : Shape := .record [("solutions", .list announcementShape)]

theorem announcements_overlook : announcements.decode.Overlooks announcementsShape :=
  (overlooks_pure _).field announcement_overlooks.list |>.decoder (by decide) _

/-!
## Requests, answers and notifications
-/

def revealRequestShape : Shape := .record (plainFields ["solutionId", "auctionId"])

theorem revealRequest_overlooks : revealRequest.decode.Overlooks revealRequestShape :=
  (overlooks_pure _).plain.plain.decoder (by decide) _

def calldataShape : Shape := .record (plainFields ["internalized", "uninternalized"])

theorem calldata_overlooks : calldata.decode.Overlooks calldataShape :=
  (overlooks_pure _).plain.plain.decoder (by decide) _

def revealResponseShape : Shape := .record [("calldata", calldataShape)]

theorem revealResponse_overlooks : revealResponse.decode.Overlooks revealResponseShape :=
  (overlooks_pure _).field calldata_overlooks |>.decoder (by decide) _

def settleRequestShape : Shape :=
  .record (plainFields ["solutionId", "submissionDeadlineLatestBlock", "auctionId"])

theorem settleRequest_overlooks : settleRequest.decode.Overlooks settleRequestShape :=
  (overlooks_pure _).plain.plain.plain.decoder (by decide) _

theorem settleResponse_overlooks : settleResponse.decode.Overlooks (.record []) :=
  (overlooks_pure _).decoder (by decide) _

def refusalShape : Shape := .record (plainFields ["kind", "description"])

theorem refusal_overlooks : refusal.decode.Overlooks refusalShape :=
  (overlooks_pure _).plain.plain.decoder (by decide) _

def quoteRequestShape : Shape :=
  .record (plainFields ["sellToken", "buyToken", "kind", "amount", "deadline"])

theorem quoteRequest_overlooks : quoteRequest.decode.Overlooks quoteRequestShape :=
  (overlooks_pure _).plain.plain.plain.plain.plain.decoder (by decide) _

def transactionShape : Shape := .record (plainFields ["from", "to", "input", "value"])

theorem transaction_overlooks : transaction.decode.Overlooks transactionShape :=
  (overlooks_pure _).plain.plain.plain.plain.decoder (by decide) _

/-- The fields of the kinds of notifications. Most kinds have none. -/
def kindFields : List (String × List (String × Shape)) :=
  [("timeout", []),
    ("emptySolution", []),
    ("duplicatedSolutionId", []),
    ("simulationFailed",
      [("block", .plain), ("tx", transactionShape), ("succeededOnce", .plain)]),
    ("invalidClearingPrices", []),
    ("missingPrice", plainFields ["tokenAddress"]),
    ("invalidExecutedAmount", []),
    ("nonBufferableTokensUsed", plainFields ["tokens"]),
    ("solverAccountInsufficientBalance", plainFields ["required"]),
    ("success", plainFields ["transaction"]),
    ("revert", plainFields ["transaction"]),
    ("driverError", plainFields ["reason"]),
    ("cancelled", []),
    ("fail", []),
    ("postprocessingTimedOut", []),
    ("banned", plainFields ["reason", "until"])]

theorem notificationKinds_overlook : VariantsOverlook notificationKinds kindFields := by
  have unit := fun kind : NotificationKind => constant_overlooks kind (.record [])
  refine .cons ⟨rfl, unit _⟩ <| .cons ⟨rfl, unit _⟩ <| .cons ⟨rfl, unit _⟩ <|
    .cons ⟨rfl, ?simulationFailed⟩ <| .cons ⟨rfl, unit _⟩ <| .cons ⟨rfl, ?missingPrice⟩ <|
    .cons ⟨rfl, unit _⟩ <| .cons ⟨rfl, ?nonBufferable⟩ <| .cons ⟨rfl, ?insufficient⟩ <|
    .cons ⟨rfl, ?success⟩ <| .cons ⟨rfl, ?revert⟩ <| .cons ⟨rfl, ?driverError⟩ <|
    .cons ⟨rfl, unit _⟩ <| .cons ⟨rfl, unit _⟩ <| .cons ⟨rfl, unit _⟩ <|
    .cons ⟨rfl, ?banned⟩ .nil
  case simulationFailed =>
    exact (overlooks_pure _).plain.field transaction_overlooks |>.plain.decoder (by decide) _
  case banned => exact (overlooks_pure _).plain.plain.decoder (by decide) _
  all_goals exact (overlooks_pure _).plain.decoder (by decide) _

theorem notification_overlooks :
    notification.Overlooks (.flattened ["auctionId", "solutionId"] kindFields) :=
  flattened_overlooks _ (overlooks_pure _).plain.plain (by decide)
    (union_overlooks _ notificationKinds_overlook)

/-!
## All formats
-/

namespace Format

/-- What is read by name in a format. Names, texts and references to solutions have no such
objects in them. -/
def shape : Format → Shape
  | .auction => auctionShape
  | .order => orderShape
  | .hook => hookShape
  | .feePolicy => feePolicyShape
  | .quotedTerms => quotedTermsShape
  | .token => tokenShape
  | .liquidity => liquidityShape
  | .reserve => reserveShape
  | .announcements => announcementsShape
  | .announcement => announcementShape
  | .trade => tradeShape
  | .fulfillment => .record (plainFields fulfillmentNames)
  | .interaction => interactionShape
  | .swap => .record (plainFields swapNames)
  | .notification => .flattened ["auctionId", "solutionId"] kindFields
  | .notificationKind => .union kindFields
  | .transaction => transactionShape
  | .quoteRequest => quoteRequestShape
  | .revealRequest => revealRequestShape
  | .calldata => calldataShape
  | .revealResponse => revealResponseShape
  | .settleRequest => settleRequestShape
  | .settleResponse => .record []
  | .refusal => refusalShape
  | .creationTime | .sellSource | .buyDestination | .signingScheme | .side | .orderClass
  | .orderUid | .solutionReference => .plain

theorem overlooks (format : Format) : format.decoder.Overlooks format.shape := by
  cases format with
  | auction => exact auction_overlooks
  | order => exact order_overlooks
  | hook => exact hook_overlooks
  | feePolicy => exact feePolicy_overlooks
  | quotedTerms => exact quotedTerms_overlooks
  | token => exact token_overlooks
  | liquidity => exact liquidity_overlooks
  | reserve => exact reserve_overlooks
  | announcements => exact announcements_overlook
  | announcement => exact announcement_overlooks
  | trade => exact trade_overlooks
  | fulfillment => exact fulfillmentFields_overlook.decoder (by decide) _
  | interaction => exact interaction_overlooks
  | swap => exact swapFields_overlook.decoder (by decide) _
  | notification => exact notification_overlooks
  | notificationKind => exact union_overlooks _ notificationKinds_overlook
  | transaction => exact transaction_overlooks
  | quoteRequest => exact quoteRequest_overlooks
  | revealRequest => exact revealRequest_overlooks
  | calldata => exact calldata_overlooks
  | revealResponse => exact revealResponse_overlooks
  | settleRequest => exact settleRequest_overlooks
  | settleResponse => exact settleResponse_overlooks
  | refusal => exact refusal_overlooks
  | creationTime | sellSource | buyDestination | signingScheme | side | orderClass | orderUid
  | solutionReference => exact overlooks_plain _

/-- The document of the value at a depth where a text has room for all its containers. -/
def Fitting (value : Json) (depth : Nat) (document : Document) : Prop :=
  document = value.documentAt depth ∧ depth + value.nesting ≤ maxDepth

/-- A member that no reader asks for makes no difference to an accepted document, whatever the
format, the object that it is put into, its place there and its value: neither in a text, as
long as there is room for the value, nor in memory. -/
theorem unknown_members_are_invisible (format : Format) (key : String) (extra : Json) :
    (∀ bytes wider result, decodeText format.decoder bytes = .ok result →
      (read wider).trailing = false →
      Widened key (Fitting extra) format.shape 0 (read bytes).document (read wider).document →
      decodeText format.decoder wider = .ok result) ∧
    ∀ value wider result, decodeValue format.decoder value = .ok result →
      Widened key (fun _ document => document = extra.toDocument) format.shape 0
        value.toDocument wider.toDocument →
      decodeValue format.decoder wider = .ok result := by
  constructor
  · intro bytes wider result accepted whole widened
    obtain ⟨_, read⟩ := decodeText_eq_ok_iff.mp accepted
    have held : Widened key Held _ _ _ _ := widened.mono fun _ _ fitting =>
      ⟨extra, fitting.1.trans (documentAt_of_nesting extra fitting.2)⟩
    exact decodeText_eq_ok_iff.mpr ⟨whole, format.overlooks held .text result read⟩
  · intro value wider result accepted widened
    have held : Widened key Held _ _ _ _ := widened.mono fun _ _ same => ⟨extra, same⟩
    exact format.overlooks held.sorted .value result accepted

/-- The news of a timeout, with an identifier. -/
def timeout : Json := .object [("solutionId", .natural 7), ("kind", .text "timeout")]

/-- The same with a member between the others that no notification has. -/
def timeoutWithMore : Json :=
  .object [("solutionId", .natural 7), ("extra", .list [.null]), ("kind", .text "timeout")]

theorem timeoutWithMore_fits : timeoutWithMore.Fits 2 := by
  refine .object (by decide) fun member among => ?_
  simp only [List.mem_cons, List.not_mem_nil, or_false] at among
  rcases among with rfl | rfl | rfl
  · exact .integer (by decide) (by decide)
  · exact .list (List.forall_mem_singleton.mpr .null)
  · exact .text "timeout"

theorem timeout_fits : timeout.Fits 2 := by
  refine .object (by decide) fun member among => ?_
  simp only [List.mem_cons, List.not_mem_nil, or_false] at among
  rcases among with rfl | rfl
  · exact .integer (by decide) (by decide)
  · exact .text "timeout"

theorem timeout_with_more_is_read_alike :
    let bytes := Text.Utf8.ofString timeout.print
    let wider := Text.Utf8.ofString timeoutWithMore.print
    ∃ news, decodeText Wire.notification bytes = .ok news ∧
      decodeText Wire.notification wider = .ok news ∧
      decodeValue Wire.notification timeout = .ok news ∧
      decodeValue Wire.notification timeoutWithMore = .ok news := by
  intro bytes wider
  have plain : timeout.reals = [] := rfl
  have widerPlain : timeoutWithMore.reals = [] := rfl
  have spelled : Spells bytes timeout := timeout_fits.spells_print (by decide) (by simp [plain])
  have widerSpelled : Spells wider timeoutWithMore :=
    timeoutWithMore_fits.spells_print (by decide) (by simp [widerPlain])
  have accepted : decodeText (Format.decoder .notification) bytes =
      .ok ⟨none, some (.single 7), .timeout⟩ := by
    rw [decodeText_of_spells _ spelled]
    rfl
  have held : decodeValue (Format.decoder .notification) timeout =
      .ok ⟨none, some (.single 7), .timeout⟩ := by rfl
  have reads : ReadByName (shape .notification) (heldEntries [("solutionId", .natural 7)] ++
      heldEntries [("kind", .text "timeout")]) _ :=
    .flattened ⟨_, [], rfl, by decide⟩ (.name rfl)
  have widened : ∀ {new : Nat → Document → Prop}, new 1 (Json.list [.null]).toDocument →
      Widened "extra" new (shape .notification) 0 timeout.toDocument timeoutWithMore.toDocument :=
    fun extra => .here reads (by decide) (by decide) extra
  have invisible := unknown_members_are_invisible .notification "extra" (.list [.null])
  refine ⟨_, accepted, invisible.1 bytes wider _ accepted ?_ ?_, held,
    invisible.2 timeout timeoutWithMore _ held (widened rfl)⟩
  · rw [widerSpelled]
  · rw [spelled, widerSpelled]
    exact widened ⟨rfl, by decide⟩

end Format

end BatchAuction.Wire
