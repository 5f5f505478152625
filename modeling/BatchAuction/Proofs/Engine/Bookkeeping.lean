import BatchAuction.Proofs.Cache.Conservation
import BatchAuction.Proofs.Engine.Traffic

/-!
# Bookkeeping of an engine

The counters of an engine say what its answers said. Answers on a route add up to a
tally; every handler moves the counters, the next identifier and the gauge by the tally
of its own answer, and a run moves them by the tally of its history.
-/

set_option autoImplicit false

namespace BatchAuction

open Clock

namespace SolutionCache

theorem size_recordSettle {cache : SolutionCache} {now : Timestamp} {id : UInt64}
    {intent : SettleIntent} (kept : (cache.recordSettle now id intent).1 ≠ .error .expired) :
    (cache.recordSettle now id intent).2.size = cache.size := by
  unfold recordSettle at kept ⊢
  rcases cache.lookup_cases now id intent.auctionId with
    ⟨-, result⟩ | ⟨entry, found, ⟨-, result⟩ | ⟨-, -, result⟩ | ⟨-, -, result⟩⟩
  · rw [result]
  · rw [result] at kept; exact absurd rfl kept
  · rw [result]; exact size_insert_of_get? found _
  · rw [result]

end SolutionCache

/-- Lookups that found nothing to show. -/
def LookupCounts.missed (counts : LookupCounts) : Nat :=
  counts.unknown + counts.expired + counts.auctionMismatch

/-- The sum of all counts. -/
def labelTotal : List (String × Nat) → Nat
  | [] => 0
  | (_, count) :: rest => count + labelTotal rest

theorem labelTotal_countLabel (label : String) (counts : List (String × Nat)) :
    labelTotal (countLabel label counts) = labelTotal counts + 1 := by
  induction counts with
  | nil => rfl
  | cons head rest ih =>
      obtain ⟨other, count⟩ := head
      rw [countLabel]
      split
      · simp only [labelTotal]; omega
      · simp only [labelTotal, ih]; omega

/-- What counters and answers are compared by. -/
structure Tally where
  solutions : Nat
  revealed : Nat
  unrevealed : Nat
  settled : Nat
  notified : Nat
  quoted : Nat
  sameTokens : Nat
  overflows : Nat
deriving DecidableEq

namespace Tally

def zero : Tally := ⟨0, 0, 0, 0, 0, 0, 0, 0⟩

def add (first second : Tally) : Tally where
  solutions := first.solutions + second.solutions
  revealed := first.revealed + second.revealed
  unrevealed := first.unrevealed + second.unrevealed
  settled := first.settled + second.settled
  notified := first.notified + second.notified
  quoted := first.quoted + second.quoted
  sameTokens := first.sameTokens + second.sameTokens
  overflows := first.overflows + second.overflows

theorem add_assoc (first second third : Tally) :
    (first.add second).add third = first.add (second.add third) := by
  simp only [add, Nat.add_assoc]

end Tally

/-- What the counters add up to. -/
def Metrics.tally (metrics : Metrics) : Tally where
  solutions := metrics.solutions
  revealed := metrics.reveals.found
  unrevealed := metrics.reveals.missed
  settled := metrics.settles.total
  notified := labelTotal metrics.notifications
  quoted := metrics.quotes.ok
  sameTokens := metrics.quotes.sameTokens
  overflows := metrics.quotes.overflow

/-- One for an answer that is of a wanted kind. -/
def one (wanted : Bool) : Nat := if wanted then 1 else 0

theorem Metrics.tally_settled {α : Type} (metrics : Metrics)
    (outcome : Except LookupError α) :
    (metrics.settled outcome).tally = metrics.tally.add { Tally.zero with settled := 1 } := by
  have counted : (metrics.settles.count outcome).total = metrics.settles.total + 1 := by
    rcases outcome with cause | value
    · cases cause <;> simp only [LookupCounts.count, LookupCounts.total] <;> omega
    · simp only [LookupCounts.count, LookupCounts.total]; omega
  simp only [tally, settled, counted]
  rfl

theorem Metrics.tally_revealed_ok {α : Type} (metrics : Metrics) (value : α) :
    (metrics.revealed (.ok value)).tally =
      metrics.tally.add { Tally.zero with revealed := 1 } := rfl

theorem Metrics.tally_revealed_error {α : Type} (metrics : Metrics) (cause : LookupError) :
    (metrics.revealed (α := α) (.error cause)).tally =
      metrics.tally.add { Tally.zero with unrevealed := 1 } := by
  have counted : (metrics.reveals.count (α := α) (.error cause)).missed =
      metrics.reveals.missed + 1 := by
    cases cause <;> simp only [LookupCounts.count, LookupCounts.missed] <;> omega
  simp only [tally, revealed, counted]
  cases cause <;> rfl

/-- What an answer on a route adds. -/
def Http.Response.tallyOn (response : Http.Response) : Engine.Route → Tally
  | .solve => { Tally.zero with solutions := response.solutionCount }
  | .reveal => { Tally.zero with
      revealed := one (response.hasStatus 200)
      unrevealed := one (response.hasStatus 404) }
  | .settle => { Tally.zero with settled := one (response.hasStatus 200) }
  | .notify => { Tally.zero with notified := one (response.hasStatus 200) }
  | .quote => { Tally.zero with
      quoted := one (response.hasStatus 200)
      sameTokens := one (response.refuses .quoteSameTokens)
      overflows := one (response.refuses .quotingFailed) }
  | .health | .metrics => .zero

namespace Engine

/-- What the answers of a history add up to. -/
def tally (history : List Exchange) : Tally where
  solutions := announced history
  revealed := answers history .reveal (·.response.hasStatus 200)
  unrevealed := answers history .reveal (·.response.hasStatus 404)
  settled := answers history .settle (·.response.hasStatus 200)
  notified := answers history .notify (·.response.hasStatus 200)
  quoted := answers history .quote (·.response.hasStatus 200)
  sameTokens := answers history .quote (·.whole.refuses .quoteSameTokens)
  overflows := answers history .quote (·.whole.refuses .quotingFailed)

theorem tally_append (first second : List Exchange) :
    tally (first ++ second) = (tally first).add (tally second) := by
  simp only [tally, Tally.add, announced_append, answers_append]

theorem answers_singleton (exchange : Exchange) (route : Route) (wanted : Exchange → Bool) :
    answers [exchange] route wanted = one (exchange.isOn route && wanted exchange) := by
  simp only [answers, List.countP_singleton, one]

theorem hasStatus_response (engine : Engine) (now : Timestamp) (request : Http.Request)
    (status : Nat) :
    (engine.exchange now request).response.hasStatus status =
      (engine.handle now request).1.hasStatus status := by
  simp only [Http.Response.hasStatus, exchange, status_answer]

/-- Where solutions are announced, the whole answer must have been sent. -/
theorem tally_of_route {engine : Engine} {now : Timestamp} {request : Http.Request}
    {route : Route} (on : Route.ofPath? request.path = some route)
    (told : route = .solve → (engine.answer now request).1 = (engine.handle now request).1) :
    tally [engine.exchange now request] = (engine.handle now request).1.tallyOn route := by
  have onRoute : ∀ other, (engine.exchange now request).isOn other = decide (route = other) := by
    intro other
    simp only [Exchange.isOn, exchange, on, Option.some.injEq]
  unfold tally
  simp only [answers_singleton, announced, onRoute, hasStatus_response]
  cases route with
  | solve =>
      have whole : (engine.exchange now request).response = (engine.handle now request).1 :=
        told rfl
      rw [whole]
      rfl
  | _ => rfl

theorem tally_of_no_route {engine : Engine} {now : Timestamp} {request : Http.Request}
    (astray : Route.ofPath? request.path = none) :
    tally [engine.exchange now request] = .zero := by
  unfold tally
  simp only [answers_singleton, announced, Exchange.isOn, exchange, astray]
  rfl

/-- From one engine to a later one the counters and the next identifier have moved by a
tally, and the gauge still shows the size of the cache. -/
structure Balances (before after : Engine) (tally : Tally) : Prop where
  counted : after.metrics.tally = before.metrics.tally.add tally
  numbered : after.solver.cache.nextId =
    before.solver.cache.nextId + UInt64.ofNat tally.solutions
  gauged : before.metrics.cacheSize = before.solver.cache.size →
    after.metrics.cacheSize = after.solver.cache.size

theorem Balances.refl (engine : Engine) : engine.Balances engine .zero where
  counted := rfl
  numbered := (UInt64.add_zero _).symm
  gauged := id

theorem Balances.trans {first middle last : Engine} {early late : Tally}
    (earlier : first.Balances middle early) (later : middle.Balances last late) :
    first.Balances last (early.add late) where
  counted := by rw [later.counted, earlier.counted, Tally.add_assoc]
  numbered := by
    rw [later.numbered, earlier.numbered, UInt64.add_assoc, ← UInt64.ofNat_add]
    rfl
  gauged exact_before := later.gauged (earlier.gauged exact_before)

variable (engine : Engine)

theorem Balances.of_tallyOn_eq_zero {response : Http.Response} {route : Route}
    (nothing : response.tallyOn route = .zero) :
    engine.Balances engine (response.tallyOn route) := by
  rw [nothing]
  exact .refl engine

/-- A request that is not understood counts on no route. -/
theorem tallyOn_invalidRequest (details : String) (route : Route) :
    (RefusalKind.invalidRequest.responseWith details).tallyOn route = .zero := by
  cases route <;> rfl

/-- No quote looks like a refusal. -/
theorem refuses_encodeQuoteResponse (response : QuoteResponse) (kind : RefusalKind) :
    (success (Wire.encodeQuoteResponse response)).refuses kind = false := by
  cases response with
  | standard quote =>
      obtain ⟨prices, pre, calls, solver, gas, origin, jit⟩ := quote
      cases origin <;> rfl
  | legacy quote =>
      obtain ⟨amount, calls, solver, gas, origin⟩ := quote
      cases origin <;> rfl

theorem quoteFor_balances (request : QuoteRequest) :
    engine.Balances (engine.quoteFor request).2
      ((engine.quoteFor request).1.tallyOn .quote) := by
  unfold quoteFor
  rcases quoteResponse engine.config request with error | response
  · cases error <;> exact ⟨rfl, (UInt64.add_zero _).symm, id⟩
  · refine ⟨?_, (UInt64.add_zero _).symm, id⟩
    simp only [Http.Response.tallyOn, refuses_encodeQuoteResponse]
    rfl

theorem quote_balances (query : List UInt8) :
    engine.Balances (engine.quote query).2 ((engine.quote query).1.tallyOn .quote) := by
  unfold quote
  cases Http.Query.decode Wire.quoteRequestFields query with
  | error error => exact .of_tallyOn_eq_zero engine (tallyOn_invalidRequest _ _)
  | ok request => exact engine.quoteFor_balances request

theorem notify_balances (body : List UInt8) :
    engine.Balances (engine.notify body).2 ((engine.notify body).1.tallyOn .notify) := by
  unfold notify
  cases readNotification body with
  | error error => exact .of_tallyOn_eq_zero engine (tallyOn_invalidRequest _ _)
  | ok notification =>
      refine ⟨?_, (UInt64.add_zero _).symm, id⟩
      simp only [Metrics.tally, withMetrics, Metrics.notified, labelTotal_countLabel]
      rfl

/-- A solver is taken over with a cache whose size is noted unless it is the old one. -/
theorem gauged_withSolver {solver : Solver} {changed : Bool}
    (kept : changed = false → solver.cache.size = engine.solver.cache.size)
    (gauged : engine.metrics.cacheSize = engine.solver.cache.size) :
    (engine.withSolver solver changed).metrics.cacheSize = solver.cache.size := by
  cases changed with
  | true => rfl
  | false => exact gauged.trans (kept rfl).symm

theorem removedEntry_eq_false {α : Type} {outcome : Except LookupError α}
    (kept : removedEntry outcome = false) : outcome ≠ .error .expired := by
  rintro rfl
  cases kept

@[simp] theorem tally_withSolver (solver : Solver) (changed : Bool) :
    (engine.withSolver solver changed).metrics.tally = engine.metrics.tally := by
  cases changed <;> rfl

theorem settleFor_balances (now : Timestamp) (request : SettleRequest) :
    engine.Balances (engine.settleFor now request).2
      ((engine.settleFor now request).1.tallyOn .settle) where
  counted := by
    simp only [settleFor, withMetrics, Metrics.tally_settled, tally_withSolver]
    rfl
  numbered := by
    have trimmed := engine.solver.cache.recordSettle_trims now request.solutionId
      ⟨request.auctionId, request.submissionDeadlineLatestBlock⟩
    exact trimmed.nextId_eq.trans (UInt64.add_zero _).symm
  gauged := by
    refine engine.gauged_withSolver fun kept => ?_
    exact SolutionCache.size_recordSettle (removedEntry_eq_false kept)

private theorem mapError_ok {ε δ α : Type} (change : ε → δ) (value : α) :
    (.ok value : Except ε α).mapError change = .ok value := rfl

private theorem mapError_error {ε δ α : Type} (change : ε → δ) (error : ε) :
    (.error error : Except ε α).mapError change = .error (change error) := rfl

/-- What a reveal does to the cache, whatever is revealed. -/
theorem revealFor_numbered (now : Timestamp) (request : RevealRequest) :
    (engine.revealFor now request).2.solver.cache.nextId = engine.solver.cache.nextId := by
  rw [(engine.revealFor_follows now request).solver_eq]
  exact (engine.solver.cache.settlement_trims now request.solutionId
    request.auctionId).nextId_eq

theorem revealFor_balances (now : Timestamp) (request : RevealRequest) :
    engine.Balances (engine.revealFor now request).2
      ((engine.revealFor now request).1.tallyOn .reveal) where
  counted := by
    unfold revealFor
    rcases engine.solver.reveal now request.solutionId request.auctionId with
      ⟨⟨cause⟩ | calldata, solver⟩
    · simp only [withMetrics, lookupOutcome, mapError_error, Metrics.tally_revealed_error,
        tally_withSolver]
      rfl
    · simp only [withMetrics, lookupOutcome, mapError_ok, Metrics.tally_revealed_ok,
        tally_withSolver]
      rfl
  numbered := by
    have solutions : ((engine.revealFor now request).1.tallyOn .reveal).solutions = 0 := rfl
    rw [revealFor_numbered, solutions]
    exact (UInt64.add_zero _).symm
  gauged gauged := by
    unfold revealFor Solver.reveal SolutionCache.settlement
    rcases engine.solver.cache.lookup_cases now request.solutionId request.auctionId with
      ⟨-, result⟩ | ⟨entry, -, ⟨-, result⟩ | ⟨-, -, result⟩ | ⟨-, -, result⟩⟩
    · rw [result]; exact gauged
    · rw [result]; rfl
    · rw [result]; exact gauged
    · rw [result]; exact gauged

/-- The body of an announcement shows how many solutions there are. -/
theorem solutionCount_announcements (announced : Announcements) :
    (success (Wire.announcements.encode announced)).solutionCount =
      announced.solutions.length :=
  List.length_map _

theorem solveWith_balances (strategy : Strategy) (auction : Auction) :
    engine.Balances (engine.solveWith strategy auction).2
      ((engine.solveWith strategy auction).1.tallyOn .solve) := by
  rcases engine.solveWith_cases strategy auction with
    ⟨⟨token⟩, -, result⟩ | ⟨settled, -, result⟩
  · rw [result]
    exact ⟨rfl, (UInt64.add_zero _).symm, id⟩
  · have count : ((engine.solveWith strategy auction).1.tallyOn .solve) =
        { Tally.zero with solutions := settled.length } := by
      rw [result]
      simp only [Http.Response.tallyOn, solutionCount_announcements, List.length_map,
        Solver.length_register]
    rw [count, result]
    refine ⟨?_, Solver.nextId_register auction engine.solver.cache settled, fun gauged => ?_⟩
    · rw [Solver.length_register]
      simp only [withMetrics, withSolver]
      split <;> rfl
    · refine gauged_withSolver (engine.withMetrics Metrics.solving) (fun unchanged => ?_) gauged
      have none_settled : settled = [] := by
        rw [← List.length_eq_zero_iff, ← Solver.length_register auction engine.solver.cache]
        simpa using unchanged
      rw [none_settled]
      rfl

theorem answerOn_balances (now : Timestamp) (request : Http.Request) (route : Route) :
    engine.Balances (engine.answerOn now request route).2
      ((engine.answerOn now request route).1.tallyOn route) := by
  cases route with
  | health => exact .refl engine
  | metrics => exact .refl engine
  | quote => exact engine.quote_balances request.query
  | notify => exact engine.notify_balances request.body
  | solve =>
      unfold answerOn solve
      cases Wire.decodeText Wire.auction.decode request.body with
      | error error => exact .of_tallyOn_eq_zero engine (tallyOn_invalidRequest _ _)
      | ok posted => exact engine.solveWith_balances _ posted.toAuction
  | reveal =>
      unfold answerOn reveal
      cases Wire.decodeText Wire.revealRequest.decode request.body with
      | error error => exact .of_tallyOn_eq_zero engine (tallyOn_invalidRequest _ _)
      | ok decoded => exact engine.revealFor_balances now decoded
  | settle =>
      unfold answerOn settle
      cases Wire.decodeText Wire.settleRequest.decode request.body with
      | error error => exact .of_tallyOn_eq_zero engine (tallyOn_invalidRequest _ _)
      | ok decoded => exact engine.settleFor_balances now decoded

theorem receive_balances (arrival : Arrival) :
    engine.Balances (engine.act arrival.event) (tally (engine.exchangesOf arrival)) := by
  obtain ⟨time, stimulus⟩ := arrival
  cases stimulus with
  | sweep => exact ⟨rfl, (UInt64.add_zero _).symm, fun _ => rfl⟩
  | request request =>
      show engine.Balances (engine.handle time request).2 (tally [engine.exchange time request])
      rcases engine.handle_cases time request with
        ⟨astray, result⟩ | ⟨route, on, ⟨admitted, result⟩ | ⟨-, result⟩⟩
      · rw [tally_of_no_route astray, result]
        exact .refl engine
      · rw [tally_of_route on, result]
        · exact engine.answerOn_balances time request route
        · rintro rfl
          have posted : request.method ≠ "HEAD" := by
            rintro head
            rw [head] at admitted
            cases admitted
          exact engine.answer_of_ne_head time posted
      · rw [tally_of_route on, result]
        · refine .of_tallyOn_eq_zero engine ?_
          cases route <;> rfl
        · intro _
          show (engine.handle time request).1.sentTo request.method = _
          rw [result]
          exact Http.Response.sentTo_empty 405 request.method

/-- The induction is on the arrivals; each moves the books by its own exchange. -/
theorem serve_balances (arrivals : List Arrival) :
    engine.Balances (engine.serve arrivals) (tally (engine.history arrivals)) := by
  induction arrivals generalizing engine with
  | nil => exact .refl engine
  | cons arrival rest ih =>
      rw [history, tally_append]
      exact (engine.receive_balances arrival).trans (ih (engine.act arrival.event))

/-- At every moment of an engine that has just been started, each counter is the number
of answers it stands for, the solutions announced so far are as many as the identifiers
given out, so their number is the next identifier, which like every identifier counts
modulo `2 ^ 64`, and the gauge shows the size of the cache. The kind of a refusal stands in
the body of the answer, which is told unless the request asks for the head alone; that
request is handled, and counted, like any other one. -/
theorem counters_count_answers (config : Config) (arrivals : List Arrival) :
    let engine := (start config).serve arrivals
    let exchanges := (start config).history arrivals
    let metrics := engine.metrics
    metrics.solutions = announced exchanges ∧
      engine.solver.cache.nextId.toNat = metrics.solutions % UInt64.size ∧
      metrics.reveals.found = answers exchanges .reveal (·.response.hasStatus 200) ∧
      metrics.reveals.unknown + metrics.reveals.expired + metrics.reveals.auctionMismatch =
        answers exchanges .reveal (·.response.hasStatus 404) ∧
      metrics.settles.total = answers exchanges .settle (·.response.hasStatus 200) ∧
      labelTotal metrics.notifications =
        answers exchanges .notify (·.response.hasStatus 200) ∧
      metrics.quotes.ok = answers exchanges .quote (·.response.hasStatus 200) ∧
      metrics.quotes.sameTokens =
        answers exchanges .quote (·.whole.refuses .quoteSameTokens) ∧
      metrics.quotes.overflow = answers exchanges .quote (·.whole.refuses .quotingFailed) ∧
      metrics.cacheSize = engine.solver.cache.size ∧
      ∀ exchange ∈ exchanges, exchange.request.method ≠ "HEAD" →
        exchange.response = exchange.whole := by
  intro engine exchanges metrics
  have balances := (start config).serve_balances arrivals
  have counted : metrics.tally = Tally.zero.add (tally exchanges) := balances.counted
  have zero_add : ∀ amount : Nat, 0 + amount = amount := Nat.zero_add
  simp only [Metrics.tally, tally, Tally.add, Tally.zero, zero_add, Tally.mk.injEq] at counted
  obtain ⟨solutions, revealed, unrevealed, settled, notified, quoted, same, overflows⟩ :=
    counted
  refine ⟨solutions, ?_, revealed, unrevealed, settled, notified, quoted, same, overflows,
    balances.gauged rfl, ?_⟩
  · have numbered : engine.solver.cache.nextId = 0 + UInt64.ofNat (announced exchanges) :=
      balances.numbered
    rw [numbered, solutions, UInt64.zero_add]
    rfl
  · intro exchange member told
    obtain ⟨asked, now, request, rfl⟩ := exists_of_mem_history member
    exact asked.answer_of_ne_head now told

end Engine

end BatchAuction
