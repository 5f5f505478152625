import BatchAuction.AddressMap
import BatchAuction.Amount

/-!
# Announced solutions

What is told of a solution before it is revealed: the prices, which orders are
traded and how much of each, and which liquidity is used.
-/

set_option autoImplicit false

namespace BatchAuction

/-- The trade of an order, which it names. -/
structure AnnouncedFulfillment where
  order : OrderUid
  executedAmount : Amount
  fee : Option Amount
deriving DecidableEq

/-- A trade. So far every trade fills an order of the auction. -/
inductive AnnouncedTrade where
  | fulfillment (trade : AnnouncedFulfillment)
deriving DecidableEq

/-- The use of a liquidity source, which it names. -/
structure AnnouncedSwap where
  internalize : Bool
  id : String
  inputToken : Address
  outputToken : Address
  inputAmount : Amount
  outputAmount : Amount
deriving DecidableEq

/-- An interaction. So far every interaction uses liquidity of the auction. -/
inductive AnnouncedInteraction where
  | liquidity (swap : AnnouncedSwap)
deriving DecidableEq

structure Announcement where
  id : UInt64
  prices : AddressMap Amount
  trades : List AnnouncedTrade
  interactions : List AnnouncedInteraction
  gas : Option UInt64
deriving DecidableEq

/-- All solutions that are announced for an auction. -/
structure Announcements where
  solutions : List Announcement
deriving DecidableEq

end BatchAuction
