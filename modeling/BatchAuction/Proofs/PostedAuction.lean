import BatchAuction.PostedAuction
import BatchAuction.Proofs.AddressMap

/-!
# What is taken over from posted auctions

Posted orders without fees, fills or quotes, and what becomes of the balances of a pool.
-/

set_option autoImplicit false

namespace BatchAuction

/-- A posted order to sell one token for another. -/
def PostedOrder.selling (sellToken buyToken : Address) (amount : Amount) : PostedOrder where
  uid := .ofNat 56 1
  sellToken := sellToken
  buyToken := buyToken
  sellAmount := amount
  buyAmount := .zero
  fullSellAmount := amount
  fullBuyAmount := .zero
  validTo := 1700000000
  side := .sell
  receiver := none
  owner := .zero
  partiallyFillable := false
  executed := none
  created := none
  preInteractions := []
  postInteractions := []
  sellSource := .erc20
  buyDestination := .erc20
  orderClass := .limit
  appData := .ofNat 32 0
  signingScheme := .eip712
  signature := []
  protocolFees := []
  quote := none

/-- A posted auction in which there is nothing to trade. -/
def PostedAuction.idle (id : Option Int64) (deadline : Clock.Timestamp) : PostedAuction :=
  ⟨id, .empty, [], [], .zero, deadline, []⟩

theorem AddressMap.get?_map {α β : Type} (change : α → β) (map : AddressMap α) (key : Address) :
    (map.map change).get? key = (map.get? key).map change := by
  simp [get?, AddressMap.map, List.find?_map, Function.comp_def]

/-- The reserve of a token is the balance that was posted for it. -/
theorem PostedLiquidity.get?_reserves (posted : PostedLiquidity) (token : Address) :
    posted.toLiquidity.reserves.get? token = (posted.tokens.get? token).map (·.balance) :=
  AddressMap.get?_map _ posted.tokens token

end BatchAuction
