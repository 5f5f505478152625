import BatchAuction.Announcement
import BatchAuction.Auction

/-!
# Solutions

A solution to an auction as a strategy proposes it, and how it is announced once
it has an identifier.
-/

set_option autoImplicit false

namespace BatchAuction

structure Asset where
  amount : Amount
  token : Address
deriving DecidableEq

/-- A swap through liquidity of the auction. It may be left out if the settlement
contract trades against its own balance. -/
structure LiquiditySwap where
  liquidity : Liquidity
  input : Asset
  output : Asset
  internalize : Bool
deriving DecidableEq

/-- A traded order, and how much of the amount that it fixes is exchanged. -/
structure Fulfillment where
  order : Order
  executed : Amount
deriving DecidableEq

/-- Fills an order completely. -/
def Fulfillment.fill (order : Order) : Fulfillment := ⟨order, order.fixedAmount⟩

/-- A solution. Every order it trades is filled completely. -/
structure Solution where
  prices : AddressMap Amount
  trades : List Order
  swaps : List LiquiditySwap
  gas : Option UInt64
deriving DecidableEq

structure Candidate where
  id : UInt64
  solution : Solution
deriving DecidableEq

/-- A filled order as it is announced. -/
def Fulfillment.announced (filled : Fulfillment) : AnnouncedTrade :=
  .fulfillment ⟨filled.order.uid, filled.executed, none⟩

/-- An order as it is announced when it is filled completely. -/
def Order.announced (order : Order) : AnnouncedTrade := (Fulfillment.fill order).announced

/-- A swap as it is announced. -/
def LiquiditySwap.announced (swap : LiquiditySwap) : AnnouncedInteraction :=
  .liquidity ⟨swap.internalize, swap.liquidity.id, swap.input.token, swap.output.token,
    swap.input.amount, swap.output.amount⟩

/-- A solution as it is announced. -/
def Candidate.announced (candidate : Candidate) : Announcement where
  id := candidate.id
  prices := candidate.solution.prices
  trades := candidate.solution.trades.map Order.announced
  interactions := candidate.solution.swaps.map LiquiditySwap.announced
  gas := candidate.solution.gas

end BatchAuction
