import BatchAuction.AddressMap
import BatchAuction.Request

/-!
# Quotes

A quote tells what a trade would cost. It exchanges at a fixed ratio and rounds
down. The amounts of a quote are unbounded, because the sell amount of a buy
order may exceed a word.
-/

set_option autoImplicit false

namespace BatchAuction

/-- Why there is no quote. -/
inductive QuoteError where
  | sameTokens
  | overflow
  | invalidRatio
deriving DecidableEq, Repr

/-- Why there is no quote, as text. -/
def QuoteError.message : QuoteError → String
  | .sameTokens => "sell and buy tokens are the same"
  | .overflow => "quoted amount does not fit into 256 bits"
  | .invalidRatio => "quote price ratio must not contain zero"

/-- The ratio at which the sell token is exchanged for the buy token. No part is
zero, so either part may divide. -/
structure Ratio where
  numerator : UInt64
  denominator : UInt64
  numerator_ne_zero : numerator ≠ 0
  denominator_ne_zero : denominator ≠ 0
deriving DecidableEq

structure Quote where
  sellToken : Address
  buyToken : Address
  side : Side
  sellAmount : Nat
  buyAmount : Nat
deriving DecidableEq

namespace Quote

/-- Uniform prices: the price of each token is the amount of the other one, so
price times amount is the same on both sides. -/
def clearingPrices (quote : Quote) : AddressMap Nat :=
  .ofList [(quote.sellToken, quote.buyAmount), (quote.buyToken, quote.sellAmount)]

/-- The amount that the request left open, if it fits a word. -/
def counterAmount (quote : Quote) : Except QuoteError Amount :=
  let left := match quote.side with
    | .sell => quote.buyAmount
    | .buy => quote.sellAmount
  (Amount.narrow left).mapError fun _ => .overflow

end Quote

namespace Ratio

/-- A ratio of two numbers, neither of which may be zero. -/
def of (numerator denominator : UInt64) : Except QuoteError Ratio :=
  if numeratorNonzero : numerator ≠ 0 then
    if denominatorNonzero : denominator ≠ 0 then
      .ok ⟨numerator, denominator, numeratorNonzero, denominatorNonzero⟩
    else .error .invalidRatio
  else .error .invalidRatio

/-- The ratio that is used unless another one is configured. -/
def standard : Ratio := ⟨95, 100, by decide, by decide⟩

/-- The buy amount for a sell amount. -/
def forward (ratio : Ratio) (amount : Nat) : Nat :=
  amount * ratio.numerator.toNat / ratio.denominator.toNat

/-- The sell amount for a buy amount. -/
def backward (ratio : Ratio) (amount : Nat) : Nat :=
  amount * ratio.denominator.toNat / ratio.numerator.toNat

/-- The quote for a request. Nothing is exchanged for itself. -/
def quote (ratio : Ratio) (request : QuoteRequest) : Except QuoteError Quote :=
  if request.sellToken = request.buyToken then .error .sameTokens
  else
    let amount := request.amount.widen
    .ok <|
      match request.side with
      | .sell => ⟨request.sellToken, request.buyToken, .sell, amount, ratio.forward amount⟩
      | .buy => ⟨request.sellToken, request.buyToken, .buy, ratio.backward amount, amount⟩

end Ratio

end BatchAuction
