import BatchAuction.Engine.Basic
import BatchAuction.Proofs.Solver.Run

/-!
# Runs of an engine

A run takes actions one after the other: requests from the network, requests that were
read already, auctions solved by any strategy, and sweeps. Of the solver each action
asks for at most one operation, so a run of the engine is a run of its solver.
-/

set_option autoImplicit false

namespace BatchAuction

open Clock

namespace Engine

/-- What an engine can be asked to do. Requests from the network are all there are,
among them notifications, quotes and those that are refused. -/
inductive Action where
  | request (request : Http.Request)
  | solve (strategy : Strategy) (auction : Auction)
  | reveal (request : RevealRequest)
  | settle (request : SettleRequest)
  | sweep

/-- An action and the reading of the clock at which it is taken. -/
structure Event where
  time : Timestamp
  action : Action

def act (engine : Engine) (event : Event) : Engine :=
  match event.action with
  | .request request => (engine.answer event.time request).2
  | .solve strategy auction => (engine.solveWith strategy auction).2
  | .reveal request => (engine.revealFor event.time request).2
  | .settle request => (engine.settleFor event.time request).2
  | .sweep => engine.sweep event.time

def run (engine : Engine) : List Event → Engine
  | [] => engine
  | event :: rest => (engine.act event).run rest

/-- What a reveal request asks of the solver. -/
def revealOperation (request : RevealRequest) : Solver.Operation :=
  .reveal request.solutionId request.auctionId

/-- What a settle request asks of the solver. -/
def settleOperation (request : SettleRequest) : Solver.Operation :=
  .settle request.solutionId ⟨request.auctionId, request.submissionDeadlineLatestBlock⟩

/-- What a body asks of the solver on a route. -/
def routeOperation? (config : Config) (body : List UInt8) : Route → Option Solver.Operation
  | .solve => (Wire.decodeText Wire.auction.decode body).toOption.map fun posted =>
      .solve (breakEven config.solutionGas) posted.toAuction
  | .reveal => (Wire.decodeText Wire.revealRequest.decode body).toOption.map revealOperation
  | .settle => (Wire.decodeText Wire.settleRequest.decode body).toOption.map settleOperation
  | .health | .metrics | .quote | .notify => none

/-- What an action asks of the solver. -/
def operation? (config : Config) : Action → Option Solver.Operation
  | .request request =>
      match Route.ofPath? request.path with
      | none => none
      | some route =>
          if route.admits request.method then routeOperation? config request.body route
          else none
  | .solve strategy auction => some (.solve strategy auction)
  | .reveal request => some (revealOperation request)
  | .settle request => some (settleOperation request)
  | .sweep => some .sweep

/-- The candidates that an action returns. -/
def offersOf (engine : Engine) (action : Action) : List Offer :=
  match operation? engine.config action with
  | none => []
  | some operation => engine.solver.offersOf operation

/-- The candidates that a run returns, in their order. -/
def offers (engine : Engine) : List Event → List Offer
  | [] => []
  | event :: rest => engine.offersOf event.action ++ (engine.act event).offers rest

/-- The events of the solver in a run. -/
def solverEvents (config : Config) (events : List Event) : List Solver.Event :=
  events.filterMap fun event =>
    (operation? config event.action).map (Solver.Event.mk event.time)

/-- An engine after an operation of its solver, or as it was but for its metrics. -/
structure Follows (engine after : Engine) (time : Timestamp)
    (operation : Option Solver.Operation) : Prop where
  config_eq : after.config = engine.config
  solver_eq : after.solver =
    match operation with
    | none => engine.solver
    | some operation => engine.solver.perform ⟨time, operation⟩

variable {engine : Engine}

theorem solveWith_follows (strategy : Strategy) (auction : Auction) (time : Timestamp) :
    engine.Follows (engine.solveWith strategy auction).2 time
      (some (.solve strategy auction)) := by
  unfold solveWith
  dsimp only [withMetrics]
  cases result : engine.solver.solve strategy auction with
  | mk outcome solver =>
      cases outcome with
      | error error => exact ⟨rfl, (congrArg Prod.snd result).symm⟩
      | ok candidates => exact ⟨rfl, (congrArg Prod.snd result).symm⟩

theorem revealFor_follows (now : Timestamp) (request : RevealRequest) :
    engine.Follows (engine.revealFor now request).2 now (some (revealOperation request)) := by
  unfold revealFor
  cases result : engine.solver.reveal now request.solutionId request.auctionId with
  | mk revealed solver =>
      cases revealed with
      | error error => exact ⟨rfl, (congrArg Prod.snd result).symm⟩
      | ok calldata => exact ⟨rfl, (congrArg Prod.snd result).symm⟩

theorem settleFor_follows (now : Timestamp) (request : SettleRequest) :
    engine.Follows (engine.settleFor now request).2 now (some (settleOperation request)) :=
  ⟨rfl, rfl⟩

theorem notify_follows (time : Timestamp) (body : List UInt8) :
    engine.Follows (engine.notify body).2 time none := by
  unfold notify
  cases readNotification body with
  | error error => exact ⟨rfl, rfl⟩
  | ok notification => exact ⟨rfl, rfl⟩

theorem quote_follows (time : Timestamp) (query : List UInt8) :
    engine.Follows (engine.quote query).2 time none := by
  unfold quote
  cases Http.Query.decode Wire.quoteRequestFields query with
  | error error => exact ⟨rfl, rfl⟩
  | ok request =>
      dsimp only [quoteFor]
      cases quoteResponse engine.config request with
      | error error => exact ⟨rfl, rfl⟩
      | ok response => exact ⟨rfl, rfl⟩

theorem answerOn_follows (now : Timestamp) (request : Http.Request) (route : Route) :
    engine.Follows (engine.answerOn now request route).2 now
      (routeOperation? engine.config request.body route) := by
  cases route with
  | health => exact ⟨rfl, rfl⟩
  | metrics => exact ⟨rfl, rfl⟩
  | quote => exact quote_follows now request.query
  | notify => exact notify_follows now request.body
  | solve =>
      unfold routeOperation? answerOn solve
      cases Wire.decodeText Wire.auction.decode request.body with
      | error error => exact ⟨rfl, rfl⟩
      | ok posted => exact solveWith_follows _ posted.toAuction now
  | reveal =>
      unfold routeOperation? answerOn reveal
      cases Wire.decodeText Wire.revealRequest.decode request.body with
      | error error => exact ⟨rfl, rfl⟩
      | ok decoded => exact revealFor_follows now decoded
  | settle =>
      unfold routeOperation? answerOn settle
      cases Wire.decodeText Wire.settleRequest.decode request.body with
      | error error => exact ⟨rfl, rfl⟩
      | ok decoded => exact settleFor_follows now decoded

/-- Every action asks the solver for what `operation?` says and changes nothing else of
it, nor the configuration. -/
theorem act_follows (event : Event) :
    engine.Follows (engine.act event) event.time (operation? engine.config event.action) := by
  obtain ⟨time, action⟩ := event
  cases action with
  | request request =>
      unfold act answer handle operation?
      dsimp only
      cases Route.ofPath? request.path with
      | none => exact ⟨rfl, rfl⟩
      | some route =>
          by_cases fits : route.admits request.method
          · simp only [if_pos fits]
            exact answerOn_follows time request route
          · simp only [if_neg fits]
            exact ⟨rfl, rfl⟩
  | solve strategy auction => exact solveWith_follows strategy auction time
  | reveal request => exact revealFor_follows time request
  | settle request => exact settleFor_follows time request
  | sweep => exact ⟨rfl, rfl⟩

/-- A run of the engine is a run of its solver, which offers the same. -/
theorem run_follows (engine : Engine) (events : List Event) :
    (engine.run events).config = engine.config ∧
      (engine.run events).solver = engine.solver.run (solverEvents engine.config events) ∧
      engine.offers events = engine.solver.offers (solverEvents engine.config events) := by
  induction events generalizing engine with
  | nil => exact ⟨rfl, rfl, rfl⟩
  | cons event rest ih =>
      have follows := engine.act_follows event
      obtain ⟨config, solver, offered⟩ := ih (engine.act event)
      rw [follows.config_eq] at config solver offered
      have solverAfter := follows.solver_eq
      simp only [run, offers, offersOf, solverEvents, List.filterMap_cons]
      cases operation : operation? engine.config event.action with
      | none =>
          rw [operation] at solverAfter
          rw [solverAfter] at solver offered
          exact ⟨config, solver, offered⟩
      | some performed =>
          rw [operation] at solverAfter
          rw [solverAfter] at solver offered
          exact ⟨config, solver, congrArg (engine.solver.offersOf performed ++ ·) offered⟩

theorem solverEvents_append (config : Config) (first second : List Event) :
    solverEvents config (first ++ second) =
      solverEvents config first ++ solverEvents config second :=
  List.filterMap_append

end Engine

end BatchAuction
