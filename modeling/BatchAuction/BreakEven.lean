import BatchAuction.Solution

/-!
# The break-even strategy

Fills the first order of an auction exactly at its limit price through the first
liquidity source. It neither looks for better prices nor matches orders.
-/

set_option autoImplicit false

namespace BatchAuction

abbrev Strategy := Auction → List Solution

/-- Uniform prices at which an order breaks even: the price of each token is the
amount of the other one. -/
def Order.limitPrices (order : Order) : AddressMap Amount :=
  .ofList [(order.sellToken, order.buyAmount), (order.buyToken, order.sellAmount)]

/-- The solution that fills one order through one liquidity source. The swap may be
left out if both tokens are trusted. -/
def Auction.fill (auction : Auction) (order : Order) (liquidity : Liquidity) (gas : UInt64) :
    Solution where
  prices := order.limitPrices
  trades := [order]
  swaps := [{
    liquidity := liquidity
    input := ⟨order.sellAmount, order.sellToken⟩
    output := ⟨order.buyAmount, order.buyToken⟩
    internalize := auction.trusts order.sellToken && auction.trusts order.buyToken }]
  gas := some gas

/-- The break-even strategy, which claims the same gas for every solution. An order
that trades a token for itself has no uniform prices and is not filled. -/
def breakEven (gas : UInt64) : Strategy := fun auction =>
  match auction.orders, auction.liquidity with
  | order :: _, liquidity :: _ =>
      if order.tradesSameToken then [] else [auction.fill order liquidity gas]
  | _, _ => []

end BatchAuction
