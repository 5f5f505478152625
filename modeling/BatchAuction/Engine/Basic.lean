import BatchAuction.Config
import BatchAuction.Engine.Refusal
import BatchAuction.Http.Query
import BatchAuction.Metrics.Exposition
import BatchAuction.Wire.Announcement
import BatchAuction.Wire.Notification
import BatchAuction.Wire.Quote

/-!
# The engine

The engine answers requests one after the other. Its state is the solver and the
metrics; its configuration does not change. The answer to a request depends on the
state and on the time at which it is taken. What is answered is said of requests whose
body has been buffered; from the network a body may be too long for that, which is told
before anything else happens.
-/

set_option autoImplicit false

namespace BatchAuction

open Clock

structure Engine where
  config : Config
  solver : Solver
  metrics : Metrics

namespace Engine

/-- An engine that has not done anything yet. -/
def start (config : Config) : Engine where
  config := config
  solver := ⟨config.settlementContract, .empty config.solutionRetention⟩
  metrics := .zero

/-- An answer and the state after it. -/
abbrev Step := Http.Response × Engine

def success (value : Json) : Http.Response := ⟨200, .json value⟩

/-- The successful answer that says nothing. -/
def done : Http.Response := success (.object [])

/-- Takes over a solver. The size of the cache is noted if its entries may have
changed. -/
def withSolver (engine : Engine) (solver : Solver) (changed : Bool) : Engine :=
  { engine with
    solver := solver
    metrics :=
      if changed then engine.metrics.cacheSized solver.cache.size else engine.metrics }

def withMetrics (engine : Engine) (update : Metrics → Metrics) : Engine :=
  { engine with metrics := update engine.metrics }

/-- Solves an auction with a strategy. -/
def solveWith (engine : Engine) (strategy : Strategy) (auction : Auction) : Step :=
  let engine := engine.withMetrics Metrics.solving
  match engine.solver.solve strategy auction with
  | (.error error, solver) =>
      (error.response, (engine.withSolver solver false).withMetrics (·.unsettled error))
  | (.ok candidates, solver) =>
      let announced : Announcements := ⟨candidates.map Candidate.announced⟩
      (success (Wire.announcements.encode announced),
        (engine.withSolver solver (!candidates.isEmpty)).withMetrics
          (·.solved candidates.length))

/-- Answers a request to solve an auction. -/
def solve (engine : Engine) (body : List UInt8) : Step :=
  match Wire.decodeText Wire.auction.decode body with
  | .error error => (error.response, engine)
  | .ok posted => engine.solveWith (breakEven engine.config.solutionGas) posted.toAuction

/-- Why a lookup failed, out of why a solution is not revealed. -/
def lookupOutcome {α : Type} (outcome : Except RevealError α) : Except LookupError α :=
  outcome.mapError fun | .notFound cause => cause

/-- Whether a lookup has removed an entry. -/
def removedEntry {α : Type} : Except LookupError α → Bool
  | .error .expired => true
  | _ => false

def revealFor (engine : Engine) (now : Timestamp) (request : RevealRequest) : Step :=
  let (revealed, solver) := engine.solver.reveal now request.solutionId request.auctionId
  let outcome := lookupOutcome revealed
  let engine := (engine.withSolver solver (removedEntry outcome)).withMetrics (·.revealed outcome)
  match revealed with
  | .ok calldata => (success (Wire.revealResponse.encode ⟨calldata⟩), engine)
  | .error error => (error.response, engine)

/-- Answers a request to reveal a solution. -/
def reveal (engine : Engine) (now : Timestamp) (body : List UInt8) : Step :=
  match Wire.decodeText Wire.revealRequest.decode body with
  | .error error => (error.response, engine)
  | .ok request => engine.revealFor now request

/-- Notes that a solution is to be settled, whether it is known or not. -/
def settleFor (engine : Engine) (now : Timestamp) (request : SettleRequest) : Step :=
  let intent : SettleIntent := ⟨request.auctionId, request.submissionDeadlineLatestBlock⟩
  let (outcome, solver) := engine.solver.settle now request.solutionId intent
  (success (Wire.settleResponse.encode ⟨⟩),
    (engine.withSolver solver (removedEntry outcome)).withMetrics (·.settled outcome))

/-- Answers the news that a solution is to be settled. -/
def settle (engine : Engine) (now : Timestamp) (body : List UInt8) : Step :=
  match Wire.decodeText Wire.settleRequest.decode body with
  | .error error => (error.response, engine)
  | .ok request => engine.settleFor now request

/-- Reads a notification from a body. -/
def readNotification (body : List UInt8) : Except Wire.Error Notification := do
  Wire.lenientNotification (← Wire.decodeText Wire.anyValue body)

def notify (engine : Engine) (body : List UInt8) : Step :=
  match readNotification body with
  | .error error => (error.response, engine)
  | .ok notification =>
      (done, engine.withMetrics (·.notified notification.report.occurrence.label))

/-- The answer to a quote request in the configured format. -/
def quoteResponse (config : Config) (request : QuoteRequest) :
    Except QuoteError QuoteResponse := do
  let quote ← config.quoteRatio.quote request
  match config.quoteFormat with
  | .standard => return .standard {
      clearingPrices := quote.clearingPrices
      preInteractions := []
      interactions := []
      solver := config.solverAddress
      gas := config.quoteGas
      txOrigin := none
      jitOrders := [] }
  | .legacy => do
      let amount ← quote.counterAmount
      return .legacy {
        amount := amount
        interactions := []
        solver := config.solverAddress
        gas := config.quoteGas
        txOrigin := none }

def quoteFor (engine : Engine) (request : QuoteRequest) : Step :=
  let outcome := quoteResponse engine.config request
  let engine := engine.withMetrics (·.quoted outcome)
  match outcome with
  | .ok response => (success (Wire.encodeQuoteResponse response), engine)
  | .error error => (error.response, engine)

def quote (engine : Engine) (query : List UInt8) : Step :=
  match Http.Query.decode Wire.quoteRequestFields query with
  | .error error =>
      (RefusalKind.invalidRequest.responseWith (Http.Query.render error), engine)
  | .ok request => engine.quoteFor request

/-- The answer to the question whether the engine is alive. -/
def health : Http.Response := success (.object [("status", .text "ok")])

/-- What a request can ask for. -/
inductive Route where
  | health
  | metrics
  | quote
  | solve
  | reveal
  | settle
  | notify
deriving DecidableEq, Repr

def routes : List (String × Route) :=
  [("/healthz", .health), ("/metrics", .metrics), ("/quote", .quote), ("/solve", .solve),
    ("/reveal", .reveal), ("/settle", .settle), ("/notify", .notify)]

def Route.ofPath? (path : String) : Option Route :=
  (routes.find? fun entry => entry.1 = path).map (·.2)

def Route.method : Route → String
  | .health | .metrics | .quote => "GET"
  | .solve | .reveal | .settle | .notify => "POST"

/-- Answers a request on its route. -/
def answerOn (engine : Engine) (now : Timestamp) (request : Http.Request) : Route → Step
  | .health => (health, engine)
  | .metrics => (⟨200, .text engine.metrics.print⟩, engine)
  | .quote => engine.quote request.query
  | .solve => engine.solve request.body
  | .reveal => engine.reveal now request.body
  | .settle => engine.settle now request.body
  | .notify => engine.notify request.body

/-- Whether a route takes requests of a method. Of whatever can be got, the head alone can
be asked for. -/
def Route.admits (route : Route) (method : String) : Bool :=
  method = route.method || (method = "HEAD" && route.method = "GET")

/-- Handles a request. Unknown paths are not found, and each path has its methods. -/
def handle (engine : Engine) (now : Timestamp) (request : Http.Request) : Step :=
  match Route.ofPath? request.path with
  | none => (.empty 404, engine)
  | some route =>
      if route.admits request.method then engine.answerOn now request route
      else (.empty 405, engine)

/-- Answers a request. A request for a head is handled like any other one. -/
def answer (engine : Engine) (now : Timestamp) (request : Http.Request) : Step :=
  let (response, engine) := engine.handle now request
  (response.sentTo request.method, engine)

theorem status_answer (engine : Engine) (now : Timestamp) (request : Http.Request) :
    (engine.answer now request).1.status = (engine.handle now request).1.status :=
  Http.Response.status_sentTo _ _

theorem answer_of_ne_head (engine : Engine) (now : Timestamp) {request : Http.Request}
    (got : request.method ≠ "HEAD") :
    (engine.answer now request).1 = (engine.handle now request).1 :=
  Http.Response.sentTo_of_ne _ got

theorem Route.admits_method (route : Route) : route.admits route.method = true := by
  simp [admits]

/-- A request with the method of its route is sent what the route answers. -/
theorem answer_of_route (engine : Engine) (now : Timestamp) {request : Http.Request}
    {route : Route} (on : Route.ofPath? request.path = some route)
    (fits : request.method = route.method) :
    engine.answer now request = engine.answerOn now request route := by
  have told : request.method ≠ "HEAD" := by
    rw [fits]
    cases route <;> decide
  unfold answer handle
  rw [on]
  simp only [fits, route.admits_method, if_true]
  rw [← fits, Http.Response.sentTo_of_ne _ told]

/-- The most bytes that a body may have to be buffered. -/
def bodyLimit : Nat := 2097152

/-- Whether the body of a request is read and is too long for that. -/
def overflows (request : Http.Request) : Bool :=
  match Route.ofPath? request.path with
  | some route =>
      route.method = "POST" && request.method = "POST" && bodyLimit < request.body.length
  | none => false

/-- Answers a request from the network, where bodies that are too long are refused. -/
def receive (engine : Engine) (now : Timestamp) (request : Http.Request) : Step :=
  if overflows request then
    (⟨413, .text "Failed to buffer the request body: length limit exceeded"⟩, engine)
  else engine.answer now request

theorem receive_of_length_le (engine : Engine) (now : Timestamp) {request : Http.Request}
    (fits : request.body.length ≤ bodyLimit) :
    engine.receive now request = engine.answer now request := by
  have whole : overflows request = false := by
    unfold overflows
    split
    · simp [Nat.not_lt.mpr fits]
    · rfl
  rw [receive, whole]
  rfl

/-- Removes the solutions whose time is over. -/
def sweep (engine : Engine) (now : Timestamp) : Engine :=
  engine.withSolver (engine.solver.sweep now) true

end Engine

end BatchAuction
