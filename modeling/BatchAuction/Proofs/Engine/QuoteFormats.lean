import BatchAuction.Proofs.AddressMap
import BatchAuction.Proofs.Decimal.Natural
import BatchAuction.Proofs.Engine.Traffic
import BatchAuction.Proofs.Quote.Exchange
import BatchAuction.Proofs.Wire.Restoration

/-!
# Quotes in both formats

The standard answer to a quote request prices both tokens, the legacy answer gives the
amount that the request left open. Both come of one quote, so they agree as long as that
amount fits a word. A larger one has no legacy answer.
-/

set_option autoImplicit false

namespace BatchAuction

open Clock

theorem Amount.limit_eq : limit = 2 ^ 256 := by decide

theorem Decimal.print_inj {n m : Nat} (same : print n = print m) : n = m := by
  have read := parseNatural_print n
  rw [same, parseNatural_print] at read
  exact (Except.ok.inj read).symm

namespace Quote

variable {quote : Quote}

theorem entries_clearingPrices_perm (different : quote.sellToken ≠ quote.buyToken) :
    quote.clearingPrices.entries.Perm
      [(quote.sellToken, quote.buyAmount), (quote.buyToken, quote.sellAmount)] :=
  AddressMap.entries_ofList_perm (by simpa using different)

theorem counterAmount_eq (quote : Quote) :
    quote.counterAmount = (Amount.narrow quote.counter).mapError fun _ => .overflow := rfl

theorem exists_counterAmount (fits : quote.counter < Amount.limit) :
    ∃ amount, quote.counterAmount = .ok amount ∧ amount.value = quote.counter := by
  obtain ⟨amount, narrowed⟩ := Amount.exists_narrow_iff.mpr fits
  exact ⟨amount, by rw [counterAmount_eq, narrowed]; rfl, Amount.narrow_eq_ok_iff.mp narrowed⟩

theorem counterAmount_of_limit_le (large : Amount.limit ≤ quote.counter) :
    quote.counterAmount = .error .overflow := by
  rw [counterAmount_eq, Amount.narrow_eq_error_iff.mpr large]
  rfl

end Quote

namespace Http.Response

/-- An answer that prices two tokens and no others. -/
def Prices (response : Response) (token other : Address) (price otherPrice : Nat) : Prop :=
  response.status = 200 ∧ ∃ prices, response.member? "clearingPrices" = some (.object prices) ∧
    token.print ≠ other.print ∧
    prices.Perm [(token.print, .text (Decimal.print price)),
      (other.print, .text (Decimal.print otherPrice))]

/-- An answer that gives one amount. -/
def Amounts (response : Response) (amount : Nat) : Prop :=
  response.status = 200 ∧ response.member? "amount" = some (.text (Decimal.print amount))

def IsRefusal (response : Response) (status : Nat) (kind : RefusalKind) : Prop :=
  response.status = status ∧ response.refuses kind = true

/-- The prices of an answer can be read off it. -/
theorem Prices.unique {response : Response} {token other : Address}
    {price price' otherPrice otherPrice' : Nat}
    (prices : response.Prices token other price otherPrice)
    (prices' : response.Prices token other price' otherPrice') :
    price = price' ∧ otherPrice = otherPrice' := by
  obtain ⟨-, members, given, different, order⟩ := prices
  obtain ⟨-, members', given', -, order'⟩ := prices'
  have same : members = members' := by
    rw [given] at given'
    exact Json.object.inj (Option.some.inj given')
  subst same
  have entries := order.symm.trans order'
  have first := entries.subset List.mem_cons_self
  have second := entries.subset (List.mem_cons_of_mem _ List.mem_cons_self)
  simp only [List.mem_cons, Prod.mk.injEq, Json.text.injEq, different, different.symm, true_and,
    false_and, or_false, false_or, List.not_mem_nil] at first second
  exact ⟨Decimal.print_inj first, Decimal.print_inj second⟩

end Http.Response

namespace Engine

/-- The engine with another format of its quotes. -/
def quotingIn (engine : Engine) (format : QuoteFormat) : Engine :=
  { engine with config := { engine.config with quoteFormat := format } }

variable {engine : Engine} {asked : QuoteRequest} {quote : Quote}

theorem answer_quote {now : Timestamp} {request : Http.Request} (method : request.method = "GET")
    (path : request.path = "/quote")
    (decoded : Http.Query.decode Wire.quoteRequestFields request.query = .ok asked) :
    (engine.answer now request).1 = (engine.quoteFor asked).1 := by
  have on : Route.ofPath? request.path = some .quote := by
    rw [path]
    decide
  rw [engine.answer_of_route now on method]
  dsimp only [answerOn, Engine.quote]
  rw [decoded]

theorem quoteFor_of_same (same : asked.sellToken = asked.buyToken) :
    (engine.quoteFor asked).1.IsRefusal 400 .quoteSameTokens := by
  have refused : (engine.quoteFor asked).1 = QuoteError.sameTokens.response := by
    simp only [quoteFor, quoteResponse, Ratio.quote_of_same same, bind, Except.bind]
  rw [refused]
  exact ⟨rfl, by decide⟩

theorem quoteFor_standard (format : engine.config.quoteFormat = .standard)
    (quoted : engine.config.quoteRatio.quote asked = .ok quote)
    (different : quote.sellToken ≠ quote.buyToken) :
    (engine.quoteFor asked).1.Prices quote.sellToken quote.buyToken
      quote.buyAmount quote.sellAmount := by
  simp only [quoteFor, quoteResponse, quoted, format, bind, Except.bind, pure, Except.pure]
  refine ⟨rfl, _, rfl, fun same => different (Wire.Codec.print_injective same), ?_⟩
  exact (Quote.entries_clearingPrices_perm different).map _

theorem quoteFor_legacy (format : engine.config.quoteFormat = .legacy)
    (quoted : engine.config.quoteRatio.quote asked = .ok quote)
    (fits : quote.counter < Amount.limit) :
    (engine.quoteFor asked).1.Amounts quote.counter := by
  obtain ⟨amount, counted, value⟩ := Quote.exists_counterAmount fits
  simp only [quoteFor, quoteResponse, quoted, format, counted, bind, Except.bind, pure,
    Except.pure]
  rw [← value]
  exact ⟨rfl, rfl⟩

theorem quoteFor_legacy_of_limit_le (format : engine.config.quoteFormat = .legacy)
    (quoted : engine.config.quoteRatio.quote asked = .ok quote)
    (large : Amount.limit ≤ quote.counter) :
    (engine.quoteFor asked).1.IsRefusal 400 .quotingFailed := by
  have refused : (engine.quoteFor asked).1 = QuoteError.overflow.response := by
    simp only [quoteFor, quoteResponse, quoted, format, Quote.counterAmount_of_limit_le large,
      bind, Except.bind]
  rw [refused]
  exact ⟨rfl, by decide⟩

/-- Both formats answer a request that is understood with the same quote. Where the amount
that the request left open fits no word, the legacy answer alone is a refusal; at a ratio of
at most one this does not befall a sale. -/
theorem both_quote_formats_agree (engine : Engine) (now : Timestamp) {request : Http.Request}
    {asked : QuoteRequest} (method : request.method = "GET") (path : request.path = "/quote")
    (decoded : Http.Query.decode Wire.quoteRequestFields request.query = .ok asked) :
    let n := engine.config.quoteRatio.numerator.toNat
    let d := engine.config.quoteRatio.denominator.toNat
    let a := asked.amount.value
    let standard := ((engine.quotingIn .standard).answer now request).1
    let legacy := ((engine.quotingIn .legacy).answer now request).1
    (asked.sellToken = asked.buyToken →
      standard.IsRefusal 400 .quoteSameTokens ∧ legacy.IsRefusal 400 .quoteSameTokens) ∧
    (asked.sellToken ≠ asked.buyToken →
      ∃ sold bought counter,
        standard.Prices asked.sellToken asked.buyToken bought sold ∧
        (∀ priceOfSold priceOfBought,
          standard.Prices asked.sellToken asked.buyToken priceOfSold priceOfBought →
          priceOfSold * sold = priceOfBought * bought) ∧
        (asked.side = .sell → sold = a ∧ bought = counter ∧
          ∀ q, q * d ≤ a * n ∧ a * n < (q + 1) * d ↔ q = counter) ∧
        (asked.side = .buy → bought = a ∧ sold = counter ∧
          ∀ q, q * n ≤ a * d ∧ a * d < (q + 1) * n ↔ q = counter) ∧
        (counter < 2 ^ 256 → legacy.Amounts counter) ∧
        (2 ^ 256 ≤ counter → legacy.IsRefusal 400 .quotingFailed) ∧
        (asked.side = .sell → n ≤ d → legacy.Amounts counter)) := by
  intro n d a standard legacy
  have answered (format : QuoteFormat) := (answer_quote method path decoded :
    ((engine.quotingIn format).answer now request).1 = ((engine.quotingIn format).quoteFor asked).1)
  refine ⟨fun same => ?_, fun different => ?_⟩
  · simp only [standard, legacy, answered]
    exact ⟨quoteFor_of_same same, quoteFor_of_same same⟩
  · obtain ⟨quote, quoted, sellToken, buyToken, side, named, counter⟩ :=
      engine.config.quoteRatio.exists_quote different
    have prices : standard.Prices asked.sellToken asked.buyToken quote.buyAmount
        quote.sellAmount := by
      rw [← sellToken, ← buyToken] at different ⊢
      simp only [standard, answered]
      exact quoteFor_standard rfl quoted different
    have amounts (fits : quote.counter < Amount.limit) : legacy.Amounts quote.counter := by
      simp only [legacy, answered]
      exact quoteFor_legacy rfl quoted fits
    obtain ⟨sale, purchase⟩ := Ratio.amounts_of_quote side named counter
    rw [Amount.limit_eq] at amounts
    refine ⟨quote.sellAmount, quote.buyAmount, quote.counter, prices, ?law, sale, purchase,
      amounts, ?large, ?small⟩
    case law =>
      intro priceOfSold priceOfBought others
      obtain ⟨rfl, rfl⟩ := prices.unique others
      exact Nat.mul_comm ..
    case large =>
      intro large
      rw [← Amount.limit_eq] at large
      simp only [legacy, answered]
      exact quoteFor_legacy_of_limit_le rfl quoted large
    case small =>
      intro sells notAbove
      apply amounts
      rw [counter, sells]
      calc engine.config.quoteRatio.forward a
          _ ≤ a := Ratio.forward_le _ (UInt64.le_iff_toNat_le.mpr notAbove) a
          _ < 2 ^ 256 := Amount.limit_eq ▸ asked.amount.value_lt_limit

/-- To buy as much as a word can hold costs more than that at the standard ratio. The price
is given, the amount is not. -/
theorem largest_purchase_has_prices_only :
    let request : Http.Request := ⟨"GET", "/quote", Text.Utf8.ofString <|
      "sellToken=0x0000000000000000000000000000000000000001" ++
      "&buyToken=0x0000000000000000000000000000000000000002&kind=buy&amount=" ++
      "115792089237316195423570985008687907853269984665640564039457584007913129639935" ++
      "&deadline=2030-01-01T00:00:00Z", []⟩
    let answer (format : QuoteFormat) :=
      (((start .standard).quotingIn format).answer .first request).1
    (∃ sold, (answer .standard).Prices (.ofNat 20 1) (.ofNat 20 2) (2 ^ 256 - 1) sold ∧
        2 ^ 256 ≤ sold) ∧
      (answer .legacy).IsRefusal 400 .quotingFailed := by
  intro request answer
  have fields : ((Http.Query.decode Wire.quoteRequestFields request.query).toOption.map
      fun asked => (asked.sellToken, asked.buyToken, asked.side, asked.amount.value)) =
        some (.ofNat 20 1, .ofNat 20 2, .buy, 2 ^ 256 - 1) := by
    decide +kernel
  cases decoded : Http.Query.decode Wire.quoteRequestFields request.query with
  | error error => rw [decoded] at fields; cases fields
  | ok asked =>
      rw [decoded] at fields
      simp only [Except.toOption, Option.map_some, Option.some.injEq, Prod.mk.injEq] at fields
      obtain ⟨sellToken, buyToken, side, amount⟩ := fields
      have different : asked.sellToken ≠ asked.buyToken := by
        rw [sellToken, buyToken]
        decide
      obtain ⟨sold, bought, counter, prices, -, -, buys, -, large, -⟩ :=
        (both_quote_formats_agree (start .standard) .first (rfl : request.method = _)
          (rfl : request.path = _) decoded).2 different
      obtain ⟨rfl, rfl, cost⟩ := buys side
      have worth : (2 ^ 256 - 1) * 100 / 95 = sold := (cost _).mp (by rw [amount]; decide)
      have exceeds : 2 ^ 256 ≤ sold := by omega
      rw [sellToken, buyToken, amount] at prices
      exact ⟨⟨sold, prices, exceeds⟩, large exceeds⟩

end Engine

end BatchAuction
