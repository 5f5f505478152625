import BatchAuction.Proofs.Cache.Lookup
import BatchAuction.Solver
import Mathlib.Data.List.Forall2

/-!
# Runs of a solver

A run performs operations one after the other, each at some reading of the clock.
Solving offers candidates; every other operation only trims the cache.
-/

set_option autoImplicit false

namespace BatchAuction

open Clock

/-- A candidate with the auction it was found for. -/
structure Offer where
  auction : Auction
  candidate : Candidate

def Offer.id (offer : Offer) : UInt64 := offer.candidate.id

namespace Solver

/-- What can be done with a solver. The solutions of an auction may come from any
strategy. -/
inductive Operation where
  | solve (strategy : Strategy) (auction : Auction)
  | reveal (id : UInt64) (auctionId : Int64)
  | settle (id : UInt64) (intent : SettleIntent)
  | sweep

/-- An operation and the reading of the clock at which it is performed. -/
structure Event where
  time : Timestamp
  operation : Operation

def perform (solver : Solver) (event : Event) : Solver :=
  match event.operation with
  | .solve strategy auction => (solver.solve strategy auction).2
  | .reveal id auctionId => (solver.reveal event.time id auctionId).2
  | .settle id intent => (solver.settle event.time id intent).2
  | .sweep => solver.sweep event.time

/-- The candidates that an operation returns. -/
def offersOf (solver : Solver) : Operation → List Offer
  | .solve strategy auction =>
      match (solver.solve strategy auction).1 with
      | .ok candidates => candidates.map (Offer.mk auction)
      | .error _ => []
  | _ => []

def run (solver : Solver) : List Event → Solver
  | [] => solver
  | event :: rest => (solver.perform event).run rest

/-- The candidates that a run returns, in their order. -/
def offers (solver : Solver) : List Event → List Offer
  | [] => []
  | event :: rest => solver.offersOf event.operation ++ (solver.perform event).offers rest

/-- A solver that has not done anything yet. -/
def fresh (contract : Address) (retention : Duration) : Solver := ⟨contract, .empty retention⟩

theorem run_append (solver : Solver) (first second : List Event) :
    solver.run (first ++ second) = (solver.run first).run second := by
  induction first generalizing solver with
  | nil => rfl
  | cons event rest ih => exact ih (solver.perform event)

theorem offers_append (solver : Solver) (first second : List Event) :
    solver.offers (first ++ second) =
      solver.offers first ++ (solver.run first).offers second := by
  induction first generalizing solver with
  | nil => rfl
  | cons event rest ih =>
      simp only [List.cons_append, offers, run, ih, List.append_assoc]

theorem length_register (auction : Auction) (cache : SolutionCache) (settled : List Settled) :
    (register auction cache settled).1.length = settled.length := by
  induction settled generalizing cache with
  | nil => rfl
  | cons pair rest ih => simp only [register, List.length_cons, ih]

theorem retention_register (auction : Auction) (cache : SolutionCache)
    (settled : List Settled) :
    (register auction cache settled).2.retention = cache.retention := by
  induction settled generalizing cache with
  | nil => rfl
  | cons pair rest ih => exact ih _

theorem add_one_add_ofNat (id : UInt64) (count : Nat) :
    id + 1 + UInt64.ofNat count = id + UInt64.ofNat (count + 1) := by
  rw [UInt64.ofNat_add, UInt64.add_assoc, UInt64.add_comm 1]
  rfl

theorem nextId_register (auction : Auction) (cache : SolutionCache) (settled : List Settled) :
    (register auction cache settled).2.nextId =
      cache.nextId + UInt64.ofNat settled.length := by
  induction settled generalizing cache with
  | nil => exact (UInt64.add_zero cache.nextId).symm
  | cons pair rest ih => exact (ih _).trans (add_one_add_ofNat cache.nextId rest.length)

/-- Settled solutions come with their own settlements. -/
theorem settleAll_settled {contract : Address} {solutions : List Solution}
    {settled : List Settled} (accepted : settleAll contract solutions = .ok settled) :
    ∀ pair ∈ settled, Settlement.ofSolution pair.1 contract = .ok pair.2 := by
  induction solutions generalizing settled with
  | nil => cases accepted; simp
  | cons solution rest ih =>
      rw [settleAll] at accepted
      cases first : Settlement.ofSolution solution contract with
      | error error => rw [first] at accepted; cases accepted
      | ok settlement =>
          cases others : settleAll contract rest with
          | error error => rw [first, others] at accepted; cases accepted
          | ok settledRest =>
              rw [first, others] at accepted
              cases accepted
              intro pair member
              rcases List.mem_cons.mp member with rfl | member
              · exact first
              · exact ih others pair member

/-- A solution with its own settlement. -/
def SettledAs (contract : Address) (solution : Solution) (pair : Settled) : Prop :=
  pair.1 = solution ∧ Settlement.ofSolution solution contract = .ok pair.2

theorem map_fst_of_settledAs {contract : Address} {solutions : List Solution}
    {settled : List Settled} (paired : List.Forall₂ (SettledAs contract) solutions settled) :
    settled.map (·.1) = solutions := by
  induction paired with
  | nil => rfl
  | cons own _ ih => rw [List.map_cons, own.1, ih]

theorem exists_settleAll_forall₂ {contract : Address} {solutions : List Solution}
    (settles : ∀ solution ∈ solutions,
      ∃ settlement, Settlement.ofSolution solution contract = .ok settlement) :
    ∃ settled, settleAll contract solutions = .ok settled ∧
      List.Forall₂ (SettledAs contract) solutions settled := by
  induction solutions with
  | nil => exact ⟨[], rfl, .nil⟩
  | cons solution rest ih =>
      obtain ⟨settlement, own⟩ := settles solution List.mem_cons_self
      obtain ⟨settled, accepted, others⟩ :=
        ih fun other member => settles other (List.mem_cons_of_mem _ member)
      refine ⟨(solution, settlement) :: settled, ?_, .cons ⟨rfl, own⟩ others⟩
      rw [settleAll, own, accepted]
      rfl

/-- The two things an operation can do: to trim the cache without an offer, or to
register settled solutions and offer them. -/
theorem perform_cases (solver : Solver) (event : Event) :
    (solver.offersOf event.operation = [] ∧ ∃ cache, solver.cache.Trims event.time cache ∧
      solver.perform event = { solver with cache := cache }) ∨
    ∃ strategy auction settled, event.operation = .solve strategy auction ∧
      settleAll solver.settlementContract (strategy auction) = .ok settled ∧
      solver.offersOf event.operation =
        (register auction solver.cache settled).1.map (Offer.mk auction) ∧
      solver.perform event =
        { solver with cache := (register auction solver.cache settled).2 } := by
  obtain ⟨time, operation⟩ := event
  cases operation with
  | solve strategy auction =>
      cases result : settleAll solver.settlementContract (strategy auction) with
      | error error =>
          refine .inl ⟨?_, solver.cache, .refl time solver.cache, ?_⟩
          · simp only [offersOf, solve, result]
          · simp only [perform, solve, result]
      | ok settled =>
          refine .inr ⟨strategy, auction, settled, rfl, result, ?_, ?_⟩
          · simp only [offersOf, solve, result]
          · simp only [perform, solve, result]
  | reveal id auctionId =>
      exact .inl ⟨rfl, _, solver.cache.settlement_trims time id auctionId, rfl⟩
  | settle id intent =>
      exact .inl ⟨rfl, _, solver.cache.recordSettle_trims time id intent, rfl⟩
  | sweep => exact .inl ⟨rfl, _, solver.cache.sweep_trims time, rfl⟩

theorem length_offersOf_solve {solver : Solver} {strategy : Strategy} {auction : Auction}
    {settled : List Settled}
    (accepted : settleAll solver.settlementContract (strategy auction) = .ok settled) :
    (solver.offersOf (.solve strategy auction)).length = settled.length := by
  simp only [offersOf, solve, accepted, List.length_map, length_register]

@[simp] theorem settlementContract_perform (solver : Solver) (event : Event) :
    (solver.perform event).settlementContract = solver.settlementContract := by
  rcases solver.perform_cases event with ⟨-, cache, -, result⟩ | ⟨_, _, _, -, -, -, result⟩
  · rw [result]
  · rw [result]

@[simp] theorem retention_perform (solver : Solver) (event : Event) :
    (solver.perform event).cache.retention = solver.cache.retention := by
  rcases solver.perform_cases event with ⟨-, cache, trims, result⟩ | ⟨_, _, _, -, -, -, result⟩
  · rw [result]; exact trims.retention_eq
  · rw [result]; exact retention_register _ _ _

@[simp] theorem settlementContract_run (solver : Solver) (events : List Event) :
    (solver.run events).settlementContract = solver.settlementContract := by
  induction events generalizing solver with
  | nil => rfl
  | cons event rest ih => exact (ih _).trans (solver.settlementContract_perform event)

@[simp] theorem retention_run (solver : Solver) (events : List Event) :
    (solver.run events).cache.retention = solver.cache.retention := by
  induction events generalizing solver with
  | nil => rfl
  | cons event rest ih => exact (ih _).trans (solver.retention_perform event)

end Solver

end BatchAuction
