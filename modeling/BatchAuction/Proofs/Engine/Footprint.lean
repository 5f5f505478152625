import BatchAuction.Proofs.Engine.Traffic
import BatchAuction.Proofs.Solver.Identifiers

/-!
# What a request leaves behind

A request that is not understood leaves the engine as it was. A request for a solution, to
reveal or to settle it, touches at most the entry of that solution, and only solving puts
entries in.
-/

set_option autoImplicit false

namespace BatchAuction

open Clock

namespace SolutionCache

/-- A cache becomes another one that differs under one identifier at most, where it holds
what is given. -/
structure ChangesAt (before after : SolutionCache) (id : UInt64) (held : Option CacheEntry) :
    Prop where
  retention_eq : after.retention = before.retention
  nextId_eq : after.nextId = before.nextId
  get?_eq : ∀ other, after.get? other = if other = id then held else before.get? other

variable {cache : SolutionCache} {id : UInt64} {entry : CacheEntry}

theorem unchanged_changesAt {held : Option CacheEntry} (found : cache.get? id = held) :
    cache.ChangesAt cache id held := by
  refine ⟨rfl, rfl, ?_⟩
  intro other
  split
  · rename_i same
    rw [same, found]
  · rfl

theorem erase_changesAt (cache : SolutionCache) (id : UInt64) :
    cache.ChangesAt (cache.erase id) id none :=
  ⟨rfl, rfl, cache.get?_erase id⟩

theorem insert_changesAt (cache : SolutionCache) (id : UInt64) (entry : CacheEntry) :
    cache.ChangesAt (cache.insert id entry) id (some entry) :=
  ⟨rfl, rfl, fun other => cache.get?_insert id other entry⟩

theorem settlement_of_get?_eq_none (absent : cache.get? id = none) (now : Timestamp)
    (auctionId : Int64) : (cache.settlement now id auctionId).2 = cache := by
  simp only [settlement, lookup_of_get?_eq_none absent]

theorem recordSettle_of_get?_eq_none (absent : cache.get? id = none) (now : Timestamp)
    (intent : SettleIntent) : (cache.recordSettle now id intent).2 = cache := by
  simp only [recordSettle, lookup_of_get?_eq_none absent]

theorem settlement_changesAt (found : cache.get? id = some entry) (now : Timestamp)
    (auctionId : Int64) :
    cache.ChangesAt (cache.settlement now id auctionId).2 id
      (if cache.isExpired now entry then none else some entry) := by
  simp only [settlement, lookup_of_get?_eq_some found]
  cases cache.isExpired now entry with
  | true => exact cache.erase_changesAt id
  | false => cases belongsTo entry auctionId <;> exact unchanged_changesAt found

theorem recordSettle_changesAt (found : cache.get? id = some entry) (now : Timestamp)
    (intent : SettleIntent) :
    cache.ChangesAt (cache.recordSettle now id intent).2 id
      (if cache.isExpired now entry then none
        else if belongsTo entry intent.auctionId then some { entry with intent := some intent }
        else some entry) := by
  simp only [recordSettle, lookup_of_get?_eq_some found]
  cases cache.isExpired now entry with
  | true => exact cache.erase_changesAt id
  | false =>
      cases belongsTo entry intent.auctionId with
      | true => exact cache.insert_changesAt id _
      | false => exact unchanged_changesAt found

end SolutionCache

/-- An answer to a request that is not understood. -/
def Http.Response.NotUnderstood (response : Http.Response) : Prop :=
  response.status = 400 ∧ response.refuses .invalidRequest = true

/-- Where the kind of a refusal is told, the whole answer is. -/
theorem Http.Response.NotUnderstood.of_sentTo {response : Http.Response} {method : String}
    (refused : (response.sentTo method).NotUnderstood) : response.NotUnderstood := by
  by_cases head : method = "HEAD"
  · obtain ⟨-, kind⟩ := refused
    rw [head] at kind
    cases kind
  · rw [response.sentTo_of_ne head] at refused
    exact refused

namespace Engine

variable {engine : Engine} {now : Timestamp}

/-!
## Requests that are not understood
-/

theorem solveWith_understood (strategy : Strategy) (auction : Auction) :
    ¬ (engine.solveWith strategy auction).1.NotUnderstood := by
  rintro ⟨status, -⟩
  rcases engine.solveWith_cases strategy auction with ⟨⟨token⟩, -, result⟩ | ⟨settled, -, result⟩
  · rw [result] at status
    cases status
  · rw [result] at status
    cases status

theorem revealFor_understood (request : RevealRequest) :
    ¬ (engine.revealFor now request).1.NotUnderstood := by
  unfold revealFor
  rcases engine.solver.reveal now request.solutionId request.auctionId with
    ⟨⟨cause⟩ | calldata, solver⟩
  · rintro ⟨status, -⟩
    cases status
  · rintro ⟨status, -⟩
    cases status

theorem quoteFor_understood (request : QuoteRequest) :
    ¬ (engine.quoteFor request).1.NotUnderstood := by
  unfold quoteFor
  rcases quoteResponse engine.config request with error | response
  · rintro ⟨status, kind⟩
    cases error with
    | sameTokens => cases kind
    | overflow => cases kind
    | invalidRatio => cases status
  · rintro ⟨status, -⟩
    cases status

theorem answerOn_of_notUnderstood {request : Http.Request} {route : Route}
    (refused : (engine.answerOn now request route).1.NotUnderstood) :
    (engine.answerOn now request route).2 = engine := by
  cases route with
  | health => rfl
  | metrics => rfl
  | quote =>
      unfold answerOn quote at refused ⊢
      cases decoded : Http.Query.decode Wire.quoteRequestFields request.query with
      | error error => rfl
      | ok quoted =>
          rw [decoded] at refused
          exact absurd refused (quoteFor_understood quoted)
  | solve =>
      unfold answerOn solve at refused ⊢
      cases decoded : Wire.decodeText Wire.auction.decode request.body with
      | error error => rfl
      | ok posted =>
          rw [decoded] at refused
          exact absurd refused (solveWith_understood _ posted.toAuction)
  | reveal =>
      unfold answerOn reveal at refused ⊢
      cases decoded : Wire.decodeText Wire.revealRequest.decode request.body with
      | error error => rfl
      | ok revealed =>
          rw [decoded] at refused
          exact absurd refused (revealFor_understood revealed)
  | settle =>
      unfold answerOn settle at refused ⊢
      cases decoded : Wire.decodeText Wire.settleRequest.decode request.body with
      | error error => rfl
      | ok settled =>
          rw [decoded] at refused
          cases refused.1
  | notify =>
      unfold answerOn notify at refused ⊢
      cases decoded : readNotification request.body with
      | error error => rfl
      | ok notification =>
          rw [decoded] at refused
          cases refused.1

theorem answer_of_notUnderstood {request : Http.Request}
    (refused : (engine.answer now request).1.NotUnderstood) :
    (engine.answer now request).2 = engine := by
  show (engine.handle now request).2 = engine
  have whole : (engine.handle now request).1.NotUnderstood := refused.of_sentTo
  rcases engine.handle_cases now request with
    ⟨-, result⟩ | ⟨route, -, ⟨-, result⟩ | ⟨-, result⟩⟩
  · rw [result]
  · rw [result] at whole ⊢
    exact answerOn_of_notUnderstood whole
  · rw [result]

/-!
## Requests that touch the solver
-/

/-- A strategy whose solutions cannot be settled leaves the solver as it was. -/
theorem solveWith_solver_of_status {strategy : Strategy} {auction : Auction}
    (failed : (engine.solveWith strategy auction).1.status ≠ 200) :
    (engine.solveWith strategy auction).2.solver = engine.solver := by
  rcases engine.solveWith_cases strategy auction with ⟨error, -, result⟩ | ⟨settled, -, result⟩
  · rw [result]
  · rw [result] at failed
    exact absurd rfl failed

theorem solve_solver_of_status {body : List UInt8} (failed : (engine.solve body).1.status ≠ 200) :
    (engine.solve body).2.solver = engine.solver := by
  unfold solve at failed ⊢
  cases decoded : Wire.decodeText Wire.auction.decode body with
  | error error => rfl
  | ok posted =>
      rw [decoded] at failed
      exact solveWith_solver_of_status failed

theorem operation?_of_route (config : Config) {request : Http.Request} {route : Route}
    (on : Route.ofPath? request.path = some route)
    (fits : route.admits request.method = true) :
    operation? config (.request request) = routeOperation? config request.body route := by
  simp only [operation?, on, if_pos fits]

theorem answer_solver_of_reveal (now : Timestamp) {request : Http.Request} {id : UInt64}
    {auctionId : Int64}
    (asked : operation? engine.config (.request request) = some (.reveal id auctionId)) :
    (engine.answer now request).2.solver =
      { engine.solver with cache := (engine.solver.cache.settlement now id auctionId).2 } := by
  have follows := (engine.act_follows ⟨now, .request request⟩).solver_eq
  rw [asked] at follows
  exact follows

theorem answer_solver_of_settle (now : Timestamp) {request : Http.Request} {id : UInt64}
    {intent : SettleIntent}
    (asked : operation? engine.config (.request request) = some (.settle id intent)) :
    (engine.answer now request).2.solver =
      { engine.solver with cache := (engine.solver.cache.recordSettle now id intent).2 } := by
  have follows := (engine.act_follows ⟨now, .request request⟩).solver_eq
  rw [asked] at follows
  exact follows

/-- Only solving with success puts entries in, and only a request that names an entry
changes one. -/
theorem answer_solver_eq {request : Http.Request}
    (unsolved : ¬ (Route.ofPath? request.path = some .solve ∧
      (engine.answer now request).1.status = 200))
    (unrevealed : ∀ id auctionId,
      operation? engine.config (.request request) = some (.reveal id auctionId) →
      engine.solver.cache.get? id = none)
    (unsettled : ∀ id intent,
      operation? engine.config (.request request) = some (.settle id intent) →
      engine.solver.cache.get? id = none) :
    (engine.answer now request).2.solver = engine.solver := by
  show (engine.handle now request).2.solver = engine.solver
  rcases engine.handle_cases now request with
    ⟨-, result⟩ | ⟨route, on, ⟨fits, result⟩ | ⟨-, result⟩⟩
  · rw [result]
  · have asked := operation?_of_route engine.config on fits
    cases route with
    | health => rw [result]; rfl
    | metrics => rw [result]; rfl
    | quote => rw [result]; exact (quote_follows now request.query).solver_eq
    | notify => rw [result]; exact (notify_follows now request.body).solver_eq
    | solve =>
        have failed : (engine.handle now request).1.status ≠ 200 := fun ok =>
          unsolved ⟨on, (engine.status_answer now request).trans ok⟩
        rw [result] at failed ⊢
        exact solve_solver_of_status failed
    | reveal =>
        cases decoded : Wire.decodeText Wire.revealRequest.decode request.body with
        | error error =>
            rw [result]
            simp only [answerOn, reveal, decoded]
        | ok revealed =>
            simp only [routeOperation?, decoded, Except.toOption, Option.map_some] at asked
            refine (answer_solver_of_reveal now asked).trans ?_
            rw [SolutionCache.settlement_of_get?_eq_none (unrevealed _ _ asked)]
    | settle =>
        cases decoded : Wire.decodeText Wire.settleRequest.decode request.body with
        | error error =>
            rw [result]
            simp only [answerOn, settle, decoded]
        | ok settled =>
            simp only [routeOperation?, decoded, Except.toOption, Option.map_some] at asked
            refine (answer_solver_of_settle now asked).trans ?_
            rw [SolutionCache.recordSettle_of_get?_eq_none (unsettled _ _ asked)]
  · rw [result]

/-- Whatever state an engine is in: a request that is not understood leaves all of it as it
was, the metrics included. The cache and its counter stay as they were unless an auction is
solved with success or a solution in the cache is named. A request for such a solution
changes its entry alone: an entry whose time is over is removed, and news that an entry of
the auction is to be settled replaces its intent. Nor does solving leave anything behind if
it fails, whatever the strategy. -/
theorem rejected_requests_leave_no_trace (engine : Engine) (now : Timestamp)
    (request : Http.Request) :
    let answered := engine.answer now request
    let before := engine.solver.cache
    let after := answered.2.solver.cache
    let asked := operation? engine.config (.request request)
    (answered.1.status = 400 → answered.1.refuses .invalidRequest = true →
        answered.2 = engine) ∧
      (¬ (Route.ofPath? request.path = some .solve ∧ answered.1.status = 200) →
        (∀ id auctionId, asked = some (.reveal id auctionId) → before.get? id = none) →
        (∀ id intent, asked = some (.settle id intent) → before.get? id = none) →
        answered.2.solver = engine.solver) ∧
      (∀ id auctionId entry, asked = some (.reveal id auctionId) →
        before.get? id = some entry →
        before.ChangesAt after id (if before.isExpired now entry then none else some entry)) ∧
      (∀ id intent entry, asked = some (.settle id intent) → before.get? id = some entry →
        before.ChangesAt after id
          (if before.isExpired now entry then none
            else if SolutionCache.belongsTo entry intent.auctionId then
              some { entry with intent := some intent }
            else some entry)) ∧
      ∀ strategy auction, (engine.solveWith strategy auction).1.status ≠ 200 →
        (engine.solveWith strategy auction).2.solver = engine.solver := by
  intro answered before after asked
  refine ⟨?_, ?_, ?_, ?_, ?_⟩
  · intro status kind
    exact answer_of_notUnderstood ⟨status, kind⟩
  · intro unsolved unrevealed unsettled
    exact answer_solver_eq unsolved unrevealed unsettled
  · intro id auctionId entry reveals found
    have solver := answer_solver_of_reveal now reveals
    show before.ChangesAt (engine.answer now request).2.solver.cache id _
    rw [solver]
    exact SolutionCache.settlement_changesAt found now auctionId
  · intro id intent entry settles found
    have solver := answer_solver_of_settle now settles
    show before.ChangesAt (engine.answer now request).2.solver.cache id _
    rw [solver]
    exact SolutionCache.recordSettle_changesAt found now intent
  · intro strategy auction failed
    exact solveWith_solver_of_status failed

/-- One of two solutions is over when it is asked for; a request without a body comes
before. -/
theorem reveal_removes_overdue_entry :
    let engine := (start .standard).run [
      ⟨.first, .solve (fun _ => [.idle, .idle]) (.idle (some 7) .first)⟩]
    let garbled : Http.Request := ⟨"POST", "/reveal", [], []⟩
    let late : Http.Request := ⟨"POST", "/reveal", [],
      Text.Utf8.encode "\x7b\"solutionId\":\"0\",\"auctionId\":7\x7d".toList⟩
    (engine.answer .last garbled).2 = engine ∧
      (engine.answer .last late).2.solver.cache.get? 0 = none ∧
      (engine.answer .last late).2.solver.cache.get? 1 = engine.solver.cache.get? 1 := by
  intro engine garbled late
  have status : (engine.answer .last garbled).1.status = 400 := by decide +kernel
  have kind : (engine.answer .last garbled).1.refuses .invalidRequest = true := by
    decide +kernel
  have readable : (Wire.decodeText Wire.revealRequest.decode late.body).toOption =
      some ⟨0, 7⟩ := by decide +kernel
  have asked : operation? engine.config (.request late) = some (.reveal 0 7) := by
    have on : Route.ofPath? late.path = some .reveal := by decide
    rw [operation?_of_route engine.config on rfl]
    exact congrArg (Option.map revealOperation) readable
  obtain ⟨entry, found⟩ : ∃ entry, engine.solver.cache.get? 0 = some entry := ⟨_, rfl⟩
  have overdue : engine.solver.cache.isExpired .last entry = true := by
    cases found
    decide
  have trace := rejected_requests_leave_no_trace engine .last
  have changes := (trace late).2.2.1 0 7 entry asked found
  refine ⟨(trace garbled).1 status kind, ?_, ?_⟩
  · rw [changes.get?_eq, if_pos rfl, if_pos overdue]
  · rw [changes.get?_eq, if_neg (by decide)]

end Engine

end BatchAuction
