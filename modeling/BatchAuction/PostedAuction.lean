import BatchAuction.Auction
import BatchAuction.Binary64.Basic

/-!
# Posted auctions

An auction as it is posted to a solver. It tells more than solving asks for: how large an
order was before a part of it was filled, when it was created, what the protocol is paid
for it, and who keeps the surplus of orders that a solver adds.
-/

set_option autoImplicit false

namespace BatchAuction

/-- When an order was created, in the form in which it was told. -/
inductive CreationTime where
  | number (value : UInt64)
  | text (value : String)
deriving DecidableEq, Repr

/-- The quote that an order was created with. -/
structure QuotedTerms where
  sellAmount : Amount
  buyAmount : Amount
  fee : Amount
  solver : Option Address
deriving DecidableEq

/-- How the protocol is paid for an order: a share of the surplus over the limit
price or over a quote, each capped by a share of the volume, or a share of the
volume itself. -/
inductive FeePolicy where
  | surplus (factor maxVolumeFactor : Binary64)
  | priceImprovement (factor maxVolumeFactor : Binary64) (quote : QuotedTerms)
  | volume (factor : Binary64)
deriving DecidableEq

structure PostedOrder where
  uid : OrderUid
  sellToken : Address
  buyToken : Address
  sellAmount : Amount
  buyAmount : Amount
  fullSellAmount : Amount
  fullBuyAmount : Amount
  validTo : UInt32
  side : Side
  receiver : Option Address
  owner : Address
  partiallyFillable : Bool
  executed : Option Amount
  created : Option CreationTime
  preInteractions : List ContractCall
  postInteractions : List ContractCall
  sellSource : SellSource
  buyDestination : BuyDestination
  orderClass : OrderClass
  appData : Digest
  signingScheme : SigningScheme
  signature : List UInt8
  protocolFees : List FeePolicy
  quote : Option QuotedTerms
deriving DecidableEq

/-- The balance of one token in a pool. -/
structure Reserve where
  balance : Amount
deriving DecidableEq

structure PostedLiquidity where
  id : String
  address : Address
  router : Address
  fee : Decimal.Scaled
  gasEstimate : Amount
  kind : String
  tokens : AddressMap Reserve
deriving DecidableEq

structure PostedAuction where
  id : Option Int64
  tokens : AddressMap Token
  orders : List PostedOrder
  liquidity : List PostedLiquidity
  effectiveGasPrice : Amount
  deadline : Clock.Timestamp
  surplusCapturingOwners : List Address
deriving DecidableEq

/-- An estimate of gas. What is too large to be counted is capped. -/
def cappedGas (estimate : Amount) : UInt64 :=
  if estimate.value < UInt64.size then .ofNat estimate.value else .ofNat (UInt64.size - 1)

theorem toNat_cappedGas (estimate : Amount) :
    (cappedGas estimate).toNat = min estimate.value (UInt64.size - 1) := by
  unfold cappedGas
  split
  · rename_i small
    rw [UInt64.toNat_ofNat_of_lt' small]
    omega
  · rename_i large
    have most : (UInt64.ofNat (UInt64.size - 1)).toNat = UInt64.size - 1 := rfl
    omega

/-!
## What solving asks for
-/

def PostedOrder.toOrder (posted : PostedOrder) : Order where
  uid := posted.uid
  sellToken := posted.sellToken
  buyToken := posted.buyToken
  sellAmount := posted.sellAmount
  buyAmount := posted.buyAmount
  validTo := posted.validTo
  side := posted.side
  receiver := posted.receiver
  owner := posted.owner
  partiallyFillable := posted.partiallyFillable
  preInteractions := posted.preInteractions
  postInteractions := posted.postInteractions
  sellSource := posted.sellSource
  buyDestination := posted.buyDestination
  orderClass := posted.orderClass
  appData := posted.appData
  signingScheme := posted.signingScheme
  signature := posted.signature

def PostedLiquidity.toLiquidity (posted : PostedLiquidity) : Liquidity where
  id := posted.id
  address := posted.address
  router := posted.router
  fee := posted.fee
  gas := cappedGas posted.gasEstimate
  kind := posted.kind
  reserves := posted.tokens.map (·.balance)

def PostedAuction.toAuction (posted : PostedAuction) : Auction where
  id := posted.id
  tokens := posted.tokens
  orders := posted.orders.map PostedOrder.toOrder
  liquidity := posted.liquidity.map PostedLiquidity.toLiquidity
  gasPrice := posted.effectiveGasPrice
  deadline := posted.deadline

end BatchAuction
