import BatchAuction.Proofs.AddressMap
import BatchAuction.Proofs.Engine.Statuses
import BatchAuction.Proofs.PostedAuction
import BatchAuction.Proofs.Solver.Atomicity
import BatchAuction.Proofs.Wire.RoundTrip

/-!
# The break-even answer

What the text of an answer says of the auction in the text of a request. All of it is
decided by the basis of the auction: the terms of its first order, the name of its first
source of liquidity, and whether both tokens are trusted.
-/

set_option autoImplicit false

namespace BatchAuction

open Clock

/-- What of an auction the break-even strategy looks at. -/
structure Basis where
  uid : OrderUid
  side : Side
  sold : Asset
  bought : Asset
  source : String
  trusted : Bool

namespace Auction

def basis (auction : Auction) (order : Order) (source : Liquidity) : Basis where
  uid := order.uid
  side := order.side
  sold := ⟨order.sellAmount, order.sellToken⟩
  bought := ⟨order.buyAmount, order.buyToken⟩
  source := source.id
  trusted := auction.trusts order.sellToken && auction.trusts order.buyToken

/-- The basis of an auction with an order and liquidity. -/
def basis? (auction : Auction) : Option Basis := do
  return auction.basis (← auction.orders.head?) (← auction.liquidity.head?)

end Auction

namespace Basis

variable (basis : Basis) (gas id : UInt64)

def executedAmount : Amount :=
  match basis.side with
  | .sell => basis.sold.amount
  | .buy => basis.bought.amount

/-- The announcement that a basis leads to. -/
def announcement : Announcement where
  id := id
  prices := .ofList
    [(basis.sold.token, basis.bought.amount), (basis.bought.token, basis.sold.amount)]
  trades := [.fulfillment ⟨basis.uid, basis.executedAmount, none⟩]
  interactions := [.liquidity ⟨basis.trusted, basis.source, basis.sold.token,
    basis.bought.token, basis.sold.amount, basis.bought.amount⟩]
  gas := some gas

/-- A basis leads to no announcement if it sells and buys one token. -/
def announced : List Announcement :=
  if basis.sold.token = basis.bought.token then [] else [basis.announcement gas id]

end Basis

def Auction.announced (auction : Auction) (gas id : UInt64) : List Announcement :=
  auction.basis?.elim [] (·.announced gas id)

section

variable {auction : Auction} {order : Order} {source : Liquidity} (gas id : UInt64)

end

namespace Announcement

/-- The announcement fills an order, and nothing else, at its limit prices through a source
of liquidity of the auction. -/
structure Fills (solution : Announcement) (auction : Auction) (order : Order)
    (source : Liquidity) (gas : UInt64) : Prop where
  prices_perm : solution.prices.entries.Perm
    [(order.sellToken, order.buyAmount), (order.buyToken, order.sellAmount)]
  balances : ∃ sellPrice buyPrice, solution.prices.get? order.sellToken = some sellPrice ∧
    solution.prices.get? order.buyToken = some buyPrice ∧
    sellPrice.value * order.sellAmount.value = buyPrice.value * order.buyAmount.value
  trades_eq : ∃ executed, solution.trades = [.fulfillment ⟨order.uid, executed, none⟩] ∧
    (order.side = .sell → executed = order.sellAmount) ∧
    (order.side = .buy → executed = order.buyAmount)
  interactions_eq : ∃ internalize, solution.interactions =
      [.liquidity ⟨internalize, source.id, order.sellToken, order.buyToken, order.sellAmount,
        order.buyAmount⟩] ∧
    (internalize = true ↔
      (∃ known, auction.tokens.get? order.sellToken = some known ∧ known.trusted = true) ∧
        ∃ known, auction.tokens.get? order.buyToken = some known ∧ known.trusted = true)
  gas_eq : solution.gas = some gas

end Announcement

namespace Engine

variable (engine : Engine)

end Engine

end BatchAuction
