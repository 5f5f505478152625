import BatchAuction.PostedAuction
import BatchAuction.Wire.Scalar

/-!
# Auctions on the wire

The JSON form of a posted auction and of everything in it.
-/

set_option autoImplicit false

namespace BatchAuction.Wire

open Fields

def side : Codec Side := .oneOf [("sell", .sell), ("buy", .buy)]

def orderClass : Codec OrderClass := .oneOf [("market", .market), ("limit", .limit)]

/-- Where the sell amount is drawn from. -/
def sellSource : Codec SellSource :=
  .oneOf [("erc20", .erc20), ("external", .external), ("internal", .internal)]

/-- Where the buy amount is paid to. -/
def buyDestination : Codec BuyDestination :=
  .oneOf [("erc20", .erc20), ("internal", .internal)]

/-- How an order is signed. -/
def signingScheme : Codec SigningScheme :=
  .oneOf [("eip712", .eip712), ("ethsign", .ethSign), ("presign", .preSign),
    ("eip1271", .eip1271)]

/-- When an order was created. -/
def creationTime : Codec CreationTime where
  decode := Decoder.firstOf "Created"
    [Codec.unsigned64.decode.map .number, Codec.text.decode.map .text]
  encode
    | .number value => Codec.unsigned64.encode value
    | .text value => .text value

/-- The members of a contract call. -/
def contractCallFields : Fields ContractCall ContractCall :=
  pure ContractCall.mk
    <*> required "target" .address (·.target)
    <*> required "value" .amount (·.value)
    <*> required "callData" .bytes (·.callData)

def hook : Codec ContractCall := .record "InteractionData" contractCallFields

/-- The quote that an order was created with. -/
def quotedTerms : Codec QuotedTerms := .record "Quote" <|
  pure QuotedTerms.mk
    <*> required "sellAmount" .amount (·.sellAmount)
    <*> required "buyAmount" .amount (·.buyAmount)
    <*> required "fee" .amount (·.fee)
    <*> optional "solver" .address (·.solver)

/-- The members of a share of the surplus: two shares. -/
def surplusFields : Fields (Binary64 × Binary64) FeePolicy :=
  pure FeePolicy.surplus
    <*> required "factor" .real (·.1)
    <*> required "maxVolumeFactor" .real (·.2)

/-- The members of a share of the improvement over a quote. -/
def priceImprovementFields : Fields (Binary64 × Binary64 × QuotedTerms) FeePolicy :=
  pure FeePolicy.priceImprovement
    <*> required "factor" .real (·.1)
    <*> required "maxVolumeFactor" .real (·.2.1)
    <*> required "quote" quotedTerms (·.2.2)

/-- The members of a share of the volume. -/
def volumeFields : Fields Binary64 FeePolicy :=
  pure FeePolicy.volume <*> required "factor" .real id

/-- How the protocol is paid. -/
def feePolicy : Codec FeePolicy where
  decode := Decoder.union "FeePolicy"
    [("surplus", surplusFields.decoder (.variant "FeePolicy" "Surplus")),
      ("priceImprovement",
        priceImprovementFields.decoder (.variant "FeePolicy" "PriceImprovement")),
      ("volume", volumeFields.decoder (.variant "FeePolicy" "Volume"))]
  encode
    | .surplus factor maxVolumeFactor =>
        tagged "surplus" (surplusFields.write (factor, maxVolumeFactor))
    | .priceImprovement factor maxVolumeFactor quote =>
        tagged "priceImprovement" (priceImprovementFields.write (factor, maxVolumeFactor, quote))
    | .volume factor => tagged "volume" (volumeFields.write factor)

def orderFields : Fields PostedOrder PostedOrder :=
  pure PostedOrder.mk
    <*> required "uid" (.fixedBytes 56) (·.uid)
    <*> required "sellToken" .address (·.sellToken)
    <*> required "buyToken" .address (·.buyToken)
    <*> required "sellAmount" .amount (·.sellAmount)
    <*> required "buyAmount" .amount (·.buyAmount)
    <*> required "fullSellAmount" .amount (·.fullSellAmount)
    <*> required "fullBuyAmount" .amount (·.fullBuyAmount)
    <*> required "validTo" .unsigned32 (·.validTo)
    <*> required "kind" side (·.side)
    <*> optional "receiver" .address (·.receiver)
    <*> required "owner" .address (·.owner)
    <*> required "partiallyFillable" .boolean (·.partiallyFillable)
    <*> optional "executed" .amount (·.executed)
    <*> optional "created" creationTime (·.created)
    <*> defaulted "preInteractions" hook.list [] (·.preInteractions)
    <*> defaulted "postInteractions" hook.list [] (·.postInteractions)
    <*> required "sellTokenSource" sellSource (·.sellSource)
    <*> required "buyTokenDestination" buyDestination (·.buyDestination)
    <*> required "class" orderClass (·.orderClass)
    <*> required "appData" (.fixedBytes 32) (·.appData)
    <*> required "signingScheme" signingScheme (·.signingScheme)
    <*> required "signature" .bytes (·.signature)
    <*> defaulted "protocolFees" feePolicy.list [] (·.protocolFees)
    <*> optional "quote" quotedTerms (·.quote)

def order : Codec PostedOrder := .record "Order" orderFields

/-- What is known of a token. -/
def token : Codec Token := .record "Token" <|
  pure Token.mk
    <*> optional "decimals" .unsigned8 (·.decimals)
    <*> optional "symbol" .text (·.symbol)
    <*> optional "referencePrice" .amount (·.referencePrice)
    <*> required "availableBalance" .amount (·.availableBalance)
    <*> required "trusted" .boolean (·.trusted)

/-- The balance of one token in a pool. -/
def reserve : Codec Reserve := .record "Reserve" <|
  pure Reserve.mk <*> required "balance" .amount (·.balance)

def liquidity : Codec PostedLiquidity := .record "Liquidity" <|
  pure PostedLiquidity.mk
    <*> required "id" .text (·.id)
    <*> required "address" .address (·.address)
    <*> required "router" .address (·.router)
    <*> required "fee" .scaled (·.fee)
    <*> required "gasEstimate" .amount (·.gasEstimate)
    <*> required "kind" .text (·.kind)
    <*> required "tokens" (.table .refused reserve) (·.tokens)

def auction : Codec PostedAuction := .record "Auction" <|
  pure PostedAuction.mk
    <*> defaulted "id" Codec.auctionId.option none (·.id)
    <*> required "tokens" (.table .refused token) (·.tokens)
    <*> required "orders" order.list (·.orders)
    <*> required "liquidity" liquidity.list (·.liquidity)
    <*> required "effectiveGasPrice" .amount (·.effectiveGasPrice)
    <*> required "deadline" .timestamp (·.deadline)
    <*> defaulted "surplusCapturingJitOrderOwners" Codec.address.list []
      (·.surplusCapturingOwners)

end BatchAuction.Wire
