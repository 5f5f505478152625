import BatchAuction.Proofs.Engine.Run

/-!
# Traffic of an engine

What reaches an engine from outside are requests and the ticks of its sweeper. The
traffic leaves a history of exchanges: every request with its answer, in order. What the
answers say is read off their statuses and bodies.
-/

set_option autoImplicit false

namespace BatchAuction

open Clock

namespace Http.Response

/-- A member of the body, if the body is an object. -/
def member? (response : Response) (key : String) : Option Json :=
  match response.body with
  | .json body => body.member? key
  | .text _ => none

/-- How many solutions an answer announces. -/
def solutionCount (response : Response) : Nat :=
  match (response.member? "solutions").bind Json.asList? with
  | some solutions => solutions.length
  | none => 0

/-- Whether an answer refuses a request for a reason of the given kind. -/
def refuses (response : Response) (kind : RefusalKind) : Bool :=
  (response.member? "kind").bind Json.asText? = some kind.name

def hasStatus (response : Response) (status : Nat) : Bool := response.status = status

end Http.Response

namespace Engine

/-- What reaches an engine from outside. -/
inductive Stimulus where
  | request (request : Http.Request)
  | sweep

/-- A stimulus and the reading of the clock at which it arrives. -/
structure Arrival where
  time : Timestamp
  stimulus : Stimulus

def Arrival.event (arrival : Arrival) : Event where
  time := arrival.time
  action := match arrival.stimulus with
    | .request request => .request request
    | .sweep => .sweep

/-- A request with its answer, as it was sent and as it was before the body was dropped from
an answer of which the head alone was asked for. -/
structure Exchange where
  request : Http.Request
  response : Http.Response
  whole : Http.Response

/-- What a request is answered. -/
def exchange (engine : Engine) (now : Timestamp) (request : Http.Request) : Exchange where
  request := request
  response := (engine.answer now request).1
  whole := (engine.handle now request).1

/-- Whether the path of the request leads to a route. -/
def Exchange.isOn (exchange : Exchange) (route : Route) : Bool :=
  Route.ofPath? exchange.request.path = some route

/-- The exchange that an arrival leads to, if it is a request. -/
def exchangesOf (engine : Engine) (arrival : Arrival) : List Exchange :=
  match arrival.stimulus with
  | .request request => [engine.exchange arrival.time request]
  | .sweep => []

/-- The engine after some arrivals. -/
def serve (engine : Engine) (arrivals : List Arrival) : Engine :=
  engine.run (arrivals.map Arrival.event)

/-- The exchanges that some arrivals lead to. -/
def history (engine : Engine) : List Arrival → List Exchange
  | [] => []
  | arrival :: rest =>
      engine.exchangesOf arrival ++ (engine.act arrival.event).history rest

/-- How many answers on a route are of a wanted kind. -/
def answers (history : List Exchange) (route : Route) (wanted : Exchange → Bool) : Nat :=
  history.countP fun exchange => exchange.isOn route && wanted exchange

/-- How many solutions the answers on the solving route announce. -/
def announced : List Exchange → Nat
  | [] => 0
  | exchange :: rest =>
      (if exchange.isOn .solve then exchange.response.solutionCount else 0) + announced rest

theorem announced_append (first second : List Exchange) :
    announced (first ++ second) = announced first + announced second := by
  induction first with
  | nil => simp [announced]
  | cons exchange rest ih => simp only [List.cons_append, announced, ih, Nat.add_assoc]

theorem answers_append (first second : List Exchange) (route : Route)
    (wanted : Exchange → Bool) :
    answers (first ++ second) route wanted =
      answers first route wanted + answers second route wanted :=
  List.countP_append

/-- What is in a history was answered by some engine at some time. -/
theorem exists_of_mem_history {engine : Engine} {arrivals : List Arrival} {exchange : Exchange}
    (member : exchange ∈ engine.history arrivals) :
    ∃ (asked : Engine) (now : Timestamp) (request : Http.Request),
      exchange = asked.exchange now request := by
  induction arrivals generalizing engine with
  | nil => cases member
  | cons arrival rest ih =>
      rcases List.mem_append.mp member with now | later
      · obtain ⟨time, stimulus⟩ := arrival
        cases stimulus with
        | sweep => cases now
        | request request => exact ⟨engine, time, request, List.mem_singleton.mp now⟩
      · exact ih later

/-- A request finds no route, asks a route with a foreign method, or is answered on its
route. -/
theorem handle_cases (engine : Engine) (now : Timestamp) (request : Http.Request) :
    (Route.ofPath? request.path = none ∧ engine.handle now request = (.empty 404, engine)) ∨
    ∃ route, Route.ofPath? request.path = some route ∧
      ((route.admits request.method = true ∧
          engine.handle now request = engine.answerOn now request route) ∨
        (route.admits request.method = false ∧
          engine.handle now request = (.empty 405, engine))) := by
  unfold handle
  cases on : Route.ofPath? request.path with
  | none => exact .inl ⟨rfl, rfl⟩
  | some route =>
      refine .inr ⟨route, rfl, ?_⟩
      cases fits : route.admits request.method with
      | true => exact .inl ⟨rfl, if_pos fits⟩
      | false => exact .inr ⟨rfl, if_neg (by simp [fits])⟩

/-- The head of an answer is what would be got, but for the body. -/
theorem answer_head (engine : Engine) (now : Timestamp) (request : Http.Request) :
    let got := engine.answer now { request with method := "GET" }
    engine.answer now { request with method := "HEAD" } = (.empty got.1.status, got.2) := by
  have handled : engine.handle now { request with method := "HEAD" } =
      engine.handle now { request with method := "GET" } := by
    unfold handle
    cases Route.ofPath? request.path with
    | none => rfl
    | some route => cases route <;> rfl
  intro got
  have status : got.1.status = (engine.handle now { request with method := "HEAD" }).1.status := by
    rw [handled]
    exact engine.status_answer now _
  have after : got.2 = (engine.handle now { request with method := "HEAD" }).2 := by
    rw [handled]
    rfl
  rw [status, after]
  rfl

/-- Solving refuses an auction and keeps nothing, or announces all candidates and keeps
them. -/
theorem solveWith_cases (engine : Engine) (strategy : Strategy) (auction : Auction) :
    (∃ error,
      Solver.settleAll engine.solver.settlementContract (strategy auction) = .error error ∧
      engine.solveWith strategy auction =
        (error.response,
          { engine with metrics := (engine.metrics.solving).unsettled error })) ∨
    ∃ settled,
      Solver.settleAll engine.solver.settlementContract (strategy auction) = .ok settled ∧
      let registered := Solver.register auction engine.solver.cache settled
      engine.solveWith strategy auction =
        (success (Wire.announcements.encode ⟨registered.1.map Candidate.announced⟩),
          (((engine.withMetrics Metrics.solving).withSolver
            { engine.solver with cache := registered.2 }
            (!registered.1.isEmpty)).withMetrics (·.solved registered.1.length))) := by
  cases outcome : Solver.settleAll engine.solver.settlementContract (strategy auction) with
  | error error =>
      refine .inl ⟨error, rfl, ?_⟩
      simp only [solveWith, Solver.solve, withMetrics, outcome]
      rfl
  | ok settled =>
      refine .inr ⟨settled, rfl, ?_⟩
      simp only [solveWith, Solver.solve, withMetrics, outcome]

end Engine

end BatchAuction
