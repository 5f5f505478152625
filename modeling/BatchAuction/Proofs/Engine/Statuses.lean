import BatchAuction.Proofs.Engine.Traffic
import BatchAuction.Proofs.Settlement.Prices

/-!
# Statuses of answers

No request provokes an internal error. The two causes that would be one cannot arise: an
accepted configuration has a ratio without a zero, and every solution of the break-even
strategy prices both tokens of each of its trades.
-/

set_option autoImplicit false

namespace BatchAuction

open Clock

theorem Order.limitPrices_prices (order : Order) :
    Settlement.Prices order.limitPrices order := by
  have found : ∀ token, order.limitPrices.get? token =
      if token = order.buyToken then some order.sellAmount
      else if token = order.sellToken then some order.buyAmount else none := by
    intro token
    simp only [limitPrices, AddressMap.ofList, List.foldl_cons, List.foldl_nil,
      AddressMap.get?_insert, AddressMap.get?_empty]
  unfold Settlement.Prices AddressMap.contains
  rw [found, found]
  constructor
  · split
    · rfl
    · rw [if_pos rfl]; rfl
  · rw [if_pos rfl]; rfl

theorem breakEven_prices {gas : UInt64} {auction : Auction} {solution : Solution}
    (found : solution ∈ breakEven gas auction) :
    ∀ order ∈ solution.trades, Settlement.Prices solution.prices order := by
  unfold breakEven at found
  split at found
  · rename_i order _ liquidity _ _ _
    split at found
    · cases found
    · rw [List.mem_singleton] at found
      subst found
      intro other member
      rw [show other = order from List.mem_singleton.mp member]
      exact order.limitPrices_prices
  · cases found

theorem Solver.exists_settleAll {contract : Address} {solutions : List Solution}
    (priced : ∀ solution ∈ solutions,
      ∀ order ∈ solution.trades, Settlement.Prices solution.prices order) :
    ∃ settled, settleAll contract solutions = .ok settled := by
  obtain ⟨settled, accepted, -⟩ := exists_settleAll_forall₂ fun solution member =>
    Settlement.exists_ofSolution (priced solution member) contract
  exact ⟨settled, accepted⟩

theorem Ratio.quote_ne_invalidRatio (ratio : Ratio) (request : QuoteRequest) :
    ratio.quote request ≠ .error .invalidRatio := by
  unfold quote
  split
  · intro equal; cases equal
  · intro equal; cases equal

theorem Quote.counterAmount_ne_invalidRatio (quote : Quote) :
    quote.counterAmount ≠ .error .invalidRatio := by
  unfold counterAmount
  dsimp only [Except.mapError]
  split
  · intro equal; cases equal
  · intro equal; cases equal

theorem Config.quoteRatio_of_draft? {entries : Toml.Entries} {draft : Config.Draft}
    (read : draft? entries = some draft) : draft.config.quoteRatio = .standard := by
  simp only [draft?, Option.bind_eq_bind, Option.pure_def] at read
  split at read
  · cases read
  · simp only [Option.bind_eq_some_iff, Option.some.injEq] at read
    obtain ⟨_, -, _, -, _, -, _, -, _, -, _, -, _, -, _, -, rfl⟩ := read
    rfl

theorem Config.Draft.ratio_of_withRatio {draft : Config.Draft} {config : Config}
    (checked : draft.withRatio = .ok config) :
    (draft.ratio = none → config.quoteRatio = draft.config.quoteRatio) ∧
      ∀ numerator denominator, draft.ratio = some (numerator, denominator) →
        numerator ≠ 0 ∧ denominator ≠ 0 ∧ config.quoteRatio.numerator = numerator ∧
          config.quoteRatio.denominator = denominator := by
  obtain ⟨options, ratio⟩ := draft
  cases ratio with
  | none =>
      cases checked
      refine ⟨fun _ => rfl, ?_⟩
      intro numerator denominator present
      cases present
  | some pair =>
      obtain ⟨numerator, denominator⟩ := pair
      simp only [withRatio, Ratio.of] at checked
      refine ⟨(nomatch ·), ?_⟩
      intro given givenDenominator present
      cases present
      by_cases numeratorZero : numerator = 0
      · simp [numeratorZero] at checked
      · by_cases denominatorZero : denominator = 0
        · simp [numeratorZero, denominatorZero] at checked
        · simp only [ne_eq, numeratorZero, denominatorZero, not_false_eq_true, dite_true] at checked
          cases checked
          exact ⟨numeratorZero, denominatorZero, rfl, rfl⟩

/-- An accepted text with a ratio has one without a zero, and it is the ratio that is
used. -/
theorem Config.parse_ratio {text : String} {config : Config}
    (accepted : parse text = .ok config) :
    ∃ draft, (Toml.parse text).bind draft? = some draft ∧
      (draft.ratio = none → config.quoteRatio = .standard) ∧
      ∀ numerator denominator, draft.ratio = some (numerator, denominator) →
        numerator ≠ 0 ∧ denominator ≠ 0 ∧ config.quoteRatio.numerator = numerator ∧
          config.quoteRatio.denominator = denominator := by
  unfold parse at accepted
  cases read : (Toml.parse text).bind draft? with
  | none => rw [read] at accepted; cases accepted
  | some draft =>
      refine ⟨draft, rfl, ?_⟩
      rw [read] at accepted
      cases checked : draft.withRatio with
      | error error => simp only [checked, bind, Except.bind] at accepted; cases accepted
      | ok result =>
          have same : result = config := by
            simp only [checked, bind, Except.bind] at accepted
            split at accepted
            · cases accepted
            · exact Except.ok.inj accepted
          subst same
          obtain ⟨absent, present⟩ := Draft.ratio_of_withRatio checked
          obtain ⟨entries, -, options⟩ := Option.bind_eq_some_iff.mp read
          exact ⟨fun missing => (absent missing).trans (quoteRatio_of_draft? options), present⟩

/-- The statuses that a route answers with. -/
def Engine.Route.statuses : Engine.Route → List Nat
  | .health | .metrics => [200]
  | .quote | .solve | .settle | .notify => [200, 400]
  | .reveal => [200, 400, 404]

namespace Engine

variable (engine : Engine)

theorem quoteResponse_ne_invalidRatio (config : Config) (request : QuoteRequest) :
    quoteResponse config request ≠ .error .invalidRatio := by
  unfold quoteResponse
  cases quoted : config.quoteRatio.quote request with
  | error error =>
      rintro equal
      have same : error = .invalidRatio := Except.error.inj equal
      exact config.quoteRatio.quote_ne_invalidRatio request (same ▸ quoted)
  | ok quote =>
      cases config.quoteFormat with
      | standard => intro equal; cases equal
      | legacy =>
          cases counted : quote.counterAmount with
          | error error =>
              intro equal
              simp only [bind, Except.bind, counted] at equal
              cases equal
              exact quote.counterAmount_ne_invalidRatio counted
          | ok amount =>
              intro equal
              simp only [bind, Except.bind, counted] at equal
              cases equal

theorem quote_status (query : List UInt8) :
    (engine.quote query).1.status = 200 ∨ (engine.quote query).1.status = 400 := by
  unfold quote
  cases Http.Query.decode Wire.quoteRequestFields query with
  | error error => exact .inr rfl
  | ok request =>
      dsimp only [quoteFor]
      cases outcome : quoteResponse engine.config request with
      | ok response => exact .inl rfl
      | error error =>
          cases error with
          | sameTokens => exact .inr rfl
          | overflow => exact .inr rfl
          | invalidRatio =>
              exact absurd outcome (quoteResponse_ne_invalidRatio engine.config request)

theorem solve_status (body : List UInt8) :
    (engine.solve body).1.status = 200 ∨ (engine.solve body).1.status = 400 := by
  unfold solve
  cases Wire.decodeText Wire.auction.decode body with
  | error error => exact .inr rfl
  | ok posted =>
      obtain ⟨settled, accepted⟩ :=
        Solver.exists_settleAll (fun _ found => breakEven_prices found)
      rcases engine.solveWith_cases (breakEven engine.config.solutionGas) posted.toAuction with
        ⟨error, refused, -⟩ | ⟨settled, -, result⟩
      · rw [accepted] at refused; cases refused
      · exact .inl (by dsimp only; rw [result]; rfl)

theorem settle_status (now : Timestamp) (body : List UInt8) :
    (engine.settle now body).1.status = 200 ∨ (engine.settle now body).1.status = 400 := by
  unfold settle
  cases Wire.decodeText Wire.settleRequest.decode body with
  | error error => exact .inr rfl
  | ok request => exact .inl rfl

theorem notify_status (body : List UInt8) :
    (engine.notify body).1.status = 200 ∨ (engine.notify body).1.status = 400 := by
  unfold notify
  cases readNotification body with
  | error error => exact .inr rfl
  | ok notification => exact .inl rfl

theorem reveal_status (now : Timestamp) (body : List UInt8) :
    (engine.reveal now body).1.status = 200 ∨ (engine.reveal now body).1.status = 400 ∨
      (engine.reveal now body).1.status = 404 := by
  unfold reveal
  cases Wire.decodeText Wire.revealRequest.decode body with
  | error error => exact .inr (.inl rfl)
  | ok request =>
      dsimp only [revealFor]
      rcases engine.solver.reveal now request.solutionId request.auctionId with
        ⟨⟨cause⟩ | calldata, solver⟩
      · exact .inr (.inr rfl)
      · exact .inl rfl

theorem answerOn_status (now : Timestamp) (request : Http.Request) (route : Route) :
    (engine.answerOn now request route).1.status ∈ route.statuses := by
  cases route with
  | health => exact List.mem_cons_self
  | metrics => exact List.mem_cons_self
  | quote => simpa [Route.statuses, answerOn] using engine.quote_status request.query
  | solve => simpa [Route.statuses, answerOn] using engine.solve_status request.body
  | reveal => simpa [Route.statuses, answerOn] using engine.reveal_status now request.body
  | settle => simpa [Route.statuses, answerOn] using engine.settle_status now request.body
  | notify => simpa [Route.statuses, answerOn] using engine.notify_status request.body

/-- The statuses of an answer: those of the route, or that there is no such path or that
it has another method. -/
theorem answer_status (now : Timestamp) (request : Http.Request) :
    (engine.answer now request).1.status ≠ 500 ∧
      ∀ route, Route.ofPath? request.path = some route → request.method = route.method →
        (engine.answer now request).1.status ∈ route.statuses := by
  have known : ∀ route : Route, 500 ∉ route.statuses := by
    intro route
    cases route <;> decide
  rw [status_answer]
  rcases engine.handle_cases now request with
    ⟨astray, result⟩ | ⟨route, on, ⟨-, result⟩ | ⟨foreign, result⟩⟩
  · rw [result, astray]
    exact ⟨(by decide : (404 : Nat) ≠ 500), fun _ found => by cases found⟩
  · have status := engine.answerOn_status now request route
    rw [result, on]
    refine ⟨fun internal => known route (internal ▸ status), ?_⟩
    rintro _ ⟨⟩ -
    exact status
  · rw [result, on]
    refine ⟨(by decide : (405 : Nat) ≠ 500), ?_⟩
    rintro _ ⟨⟩ fits
    rw [fits, route.admits_method] at foreign
    cases foreign

theorem history_status (arrivals : List Arrival) :
    ∀ exchange ∈ engine.history arrivals, exchange.response.status ≠ 500 ∧
      ∀ route, Route.ofPath? exchange.request.path = some route →
        exchange.request.method = route.method →
        exchange.response.status ∈ route.statuses := by
  intro exchange member
  obtain ⟨asked, now, request, rfl⟩ := exists_of_mem_history member
  exact asked.answer_status now request

/-- No traffic with an engine leads to an internal error, and every route answers with its
own statuses only. An accepted text has no ratio with a zero, so no quote fails for its
ratio; whatever the break-even strategy finds is priced and can be settled. -/
theorem no_internal_error (config : Config) (arrivals : List Arrival) :
    (∀ exchange ∈ (start config).history arrivals, exchange.response.status ≠ 500 ∧
      ∀ route, Route.ofPath? exchange.request.path = some route →
        exchange.request.method = route.method →
        exchange.response.status ∈ route.statuses) ∧
      (∀ text, Config.parse text = .ok config →
        ∃ draft, (Toml.parse text).bind Config.draft? = some draft ∧
          (draft.ratio = none → config.quoteRatio = .standard) ∧
          ∀ numerator denominator, draft.ratio = some (numerator, denominator) →
            numerator ≠ 0 ∧ denominator ≠ 0 ∧ config.quoteRatio.numerator = numerator ∧
              config.quoteRatio.denominator = denominator) ∧
      (∀ request, config.quoteRatio.quote request ≠ .error .invalidRatio ∧
        quoteResponse config request ≠ .error .invalidRatio) ∧
      ∀ auction : Auction, ∀ solution ∈ breakEven config.solutionGas auction,
        (∀ order ∈ solution.trades, solution.prices.contains order.sellToken = true ∧
          solution.prices.contains order.buyToken = true) ∧
        ∃ settlement, Settlement.ofSolution solution config.settlementContract =
          .ok settlement := by
  refine ⟨(start config).history_status arrivals, fun text => Config.parse_ratio, ?_, ?_⟩
  · intro request
    exact ⟨config.quoteRatio.quote_ne_invalidRatio request,
      quoteResponse_ne_invalidRatio config request⟩
  · intro auction solution found
    exact ⟨breakEven_prices found, Settlement.exists_ofSolution (breakEven_prices found) _⟩

theorem solve_nothing : (engine.solve []).1.status = 400 := by
  have damaged : (Wire.decodeText Wire.auction.decode []).toOption.isNone = true := by
    decide +kernel
  unfold solve
  cases outcome : Wire.decodeText Wire.auction.decode [] with
  | error error => rfl
  | ok auction => rw [outcome] at damaged; cases damaged

/-- An engine with a configured ratio refuses a quote and a body that say nothing. -/
theorem empty_requests_are_refused :
    let arrivals : List Arrival := [
      ⟨.first, .request ⟨"GET", "/quote", [], []⟩⟩,
      ⟨.last, .sweep⟩,
      ⟨.first, .request ⟨"POST", "/solve", [], []⟩⟩]
    ∃ config, Config.parse "quote-price-ratio = [1, 2]" = .ok config ∧
      config.quoteRatio.numerator ≠ 0 ∧
      ((start config).history arrivals).map (·.response.status) = [400, 400] ∧
      ∀ exchange ∈ (start config).history arrivals, exchange.response.status ≠ 500 := by
  intro arrivals
  have accepted : (Config.parse "quote-price-ratio = [1, 2]").toOption.isSome = true := by
    decide +kernel
  cases parsed : Config.parse "quote-price-ratio = [1, 2]" with
  | error error => rw [parsed] at accepted; cases accepted
  | ok config =>
      have safe := no_internal_error config arrivals
      refine ⟨config, rfl, config.quoteRatio.numerator_ne_zero, ?_, ?_⟩
      · exact congrArg (fun status => [400, status]) (solve_nothing _)
      · intro exchange member
        exact (safe.1 exchange member).1

end Engine

end BatchAuction
