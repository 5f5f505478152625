import BatchAuction.AddressMap
import BatchAuction.Order

/-!
# Answers to quote requests

The standard answer gives clearing prices. The short answer, kept for drivers that
know no other, gives the amount that the request left open.
-/

set_option autoImplicit false

namespace BatchAuction

/-- An order that a solver adds of its own to complete a trade. -/
structure JitOrder where
  sellToken : Address
  buyToken : Address
  sellAmount : Amount
  buyAmount : Amount
  executedAmount : Amount
  receiver : Address
  validTo : UInt32
  side : Side
  partiallyFillable : Bool
  sellSource : SellSource
  buyDestination : BuyDestination
  appData : Digest
  signature : List UInt8
  signingScheme : SigningScheme
deriving DecidableEq

structure StandardQuote where
  clearingPrices : AddressMap Nat
  preInteractions : List ContractCall
  interactions : List ContractCall
  solver : Address
  gas : UInt64
  txOrigin : Option Address
  jitOrders : List JitOrder
deriving DecidableEq

structure LegacyQuote where
  amount : Amount
  interactions : List ContractCall
  solver : Address
  gas : UInt64
  txOrigin : Option Address
deriving DecidableEq

/-- The shape of the answers to quote requests. -/
inductive QuoteFormat where
  | standard
  | legacy
deriving DecidableEq, Repr

/-- An answer to a quote request. -/
inductive QuoteResponse where
  | standard (quote : StandardQuote)
  | legacy (quote : LegacyQuote)
deriving DecidableEq

end BatchAuction
