import BatchAuction.BreakEven
import BatchAuction.SolutionCache

/-!
# Solver

The solver runs a strategy over auctions, gives the solutions their identifiers
and keeps them until they are revealed or settled.
-/

set_option autoImplicit false

namespace BatchAuction

open Clock

/-- Why a solution is not revealed. -/
inductive RevealError where
  | notFound (cause : LookupError)
deriving DecidableEq, Repr

/-- Why a solution is not revealed, as text. -/
def RevealError.message : RevealError → String
  | .notFound cause => "solution not found: " ++ cause.message

structure Solver where
  settlementContract : Address
  cache : SolutionCache

namespace Solver

/-- A solution and the settlement it was turned into. -/
abbrev Settled := Solution × Settlement

/-- The settlements of solutions, or the first failure. -/
def settleAll (contract : Address) : List Solution → Except SettlementError (List Settled)
  | [] => .ok []
  | solution :: rest => do
      let settlement ← Settlement.ofSolution solution contract
      let settled ← settleAll contract rest
      return (solution, settlement) :: settled

/-- Gives settled solutions their identifiers in order and keeps them. -/
def register (auction : Auction) : SolutionCache → List Settled → List Candidate × SolutionCache
  | cache, [] => ([], cache)
  | cache, (solution, settlement) :: rest =>
      let (id, cache) := cache.takeId
      let cache := cache.insert id {
        auctionId := auction.id
        deadline := auction.deadline
        settlement := settlement
        intent := none }
      let (candidates, cache) := register auction cache rest
      (⟨id, solution⟩ :: candidates, cache)

/-- Solves an auction. If any solution cannot be settled, none is kept. -/
def solve (solver : Solver) (strategy : Strategy) (auction : Auction) :
    Except SettlementError (List Candidate) × Solver :=
  match settleAll solver.settlementContract (strategy auction) with
  | .error error => (.error error, solver)
  | .ok settled =>
      let (candidates, cache) := register auction solver.cache settled
      (.ok candidates, { solver with cache := cache })

/-- The calldata that executes a solution for an auction. -/
def reveal (solver : Solver) (now : Timestamp) (id : UInt64) (auctionId : Int64) :
    Except RevealError Calldata × Solver :=
  let (found, cache) := solver.cache.settlement now id auctionId
  let revealed := match found with
    | .ok settlement => .ok (settlement.calldata auctionId)
    | .error error => .error (.notFound error)
  (revealed, { solver with cache := cache })

/-- Notes that the driver is about to execute a solution. -/
def settle (solver : Solver) (now : Timestamp) (id : UInt64) (intent : SettleIntent) :
    Except LookupError Unit × Solver :=
  let (recorded, cache) := solver.cache.recordSettle now id intent
  (recorded, { solver with cache := cache })

/-- Removes the solutions whose time is over. -/
def sweep (solver : Solver) (now : Timestamp) : Solver :=
  { solver with cache := solver.cache.sweep now }

end Solver

end BatchAuction
