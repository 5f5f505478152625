import BatchAuction.Clock.Timestamp
import BatchAuction.Order

/-!
# Requests and answers

The messages about solutions that were announced before, quote requests, and the
refusal of any request.
-/

set_option autoImplicit false

namespace BatchAuction

/-- A request for the calldata of a solution. -/
structure RevealRequest where
  solutionId : UInt64
  auctionId : Int64
deriving DecidableEq, Repr

/-- The calldata of a settlement, without and with the interactions that may be
left out. -/
structure Calldata where
  internalized : List UInt8
  uninternalized : List UInt8
deriving DecidableEq, Repr

/-- The answer to a reveal request. -/
structure RevealResponse where
  calldata : Calldata
deriving DecidableEq, Repr

/-- The news that a solution won and must be settled. -/
structure SettleRequest where
  solutionId : UInt64
  submissionDeadlineLatestBlock : UInt64
  auctionId : Int64
deriving DecidableEq, Repr

/-- The answer to that news, which says nothing. -/
structure SettleResponse where
deriving DecidableEq, Repr

/-- Why a request was refused. -/
structure Refusal where
  kind : String
  description : String
deriving DecidableEq, Repr

/-- A request for the price of a trade. -/
structure QuoteRequest where
  sellToken : Address
  buyToken : Address
  side : Side
  amount : Amount
  deadline : Clock.Timestamp
deriving DecidableEq

end BatchAuction
