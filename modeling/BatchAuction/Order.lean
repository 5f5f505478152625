import BatchAuction.Amount

/-!
# Orders

A user's order to exchange one token for another, with everything that its
signature covers and the hooks that run before and after it.
-/

set_option autoImplicit false

namespace BatchAuction

/-- Whether the sell amount or the buy amount of an order is fixed. -/
inductive Side where
  | sell
  | buy
deriving DecidableEq, Repr

/-- Whether an order was priced at the market or by its user. -/
inductive OrderClass where
  | market
  | limit
deriving DecidableEq, Repr

/-- Where the sell amount is drawn from. -/
inductive SellSource where
  | erc20
  | external
  | internal
deriving DecidableEq, Repr

/-- Where the buy amount is paid to. -/
inductive BuyDestination where
  | erc20
  | internal
deriving DecidableEq, Repr

/-- How an order is signed: over its structured data, over its hash, by an earlier
transaction of its owner, or by a contract that owns it. -/
inductive SigningScheme where
  | eip712
  | ethSign
  | preSign
  | eip1271
deriving DecidableEq, Repr

structure ContractCall where
  target : Address
  value : Amount
  callData : List UInt8
deriving DecidableEq

structure Order where
  uid : OrderUid
  sellToken : Address
  buyToken : Address
  sellAmount : Amount
  buyAmount : Amount
  validTo : UInt32
  side : Side
  receiver : Option Address
  owner : Address
  partiallyFillable : Bool
  preInteractions : List ContractCall
  postInteractions : List ContractCall
  sellSource : SellSource
  buyDestination : BuyDestination
  orderClass : OrderClass
  appData : Digest
  signingScheme : SigningScheme
  signature : List UInt8
deriving DecidableEq

namespace Order

/-- Whether an order sells and buys one token, which uniform prices cannot
express. -/
def tradesSameToken (order : Order) : Bool := order.sellToken = order.buyToken

/-- The fixed amount of an order: its sell amount or its buy amount. -/
def fixedAmount (order : Order) : Amount :=
  match order.side with
  | .sell => order.sellAmount
  | .buy => order.buyAmount

end Order

end BatchAuction
