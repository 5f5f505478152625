import BatchAuction.Proofs.Settlement.Calldata
import BatchAuction.Proofs.Settlement.Interactions

/-!
# Announced and revealed solutions

A solution is announced first and revealed as calldata later. Both tell of the same
prices, trades and swaps, position by position.
-/

set_option autoImplicit false

namespace BatchAuction

open Contract

/-- The solution that fills one order by one swap, at equal prices. -/
def Solution.direct (sellToken buyToken router : Address) (amount : Amount) : Solution where
  prices := .ofList [(sellToken, amount), (buyToken, amount)]
  trades := [.selling sellToken buyToken amount]
  swaps := [{
    liquidity := ⟨"pool", .zero, router, .ofInt 0, 0, "constantProduct", .empty⟩
    input := ⟨amount, sellToken⟩
    output := ⟨amount, buyToken⟩
    internalize := true }]
  gas := none

/-- An announced trade and a trade of the call are of one order, whose tokens the call
selects by their indices. -/
structure TradeAgrees (tokens : List Address) (order : Order) (announced : AnnouncedFulfillment)
    (trade : Trade) : Prop where
  uid_eq : announced.order = order.uid
  executedAmount_eq : trade.executedAmount = announced.executedAmount
  sellToken_eq : tokens[trade.sellTokenIndex.value]? = some order.sellToken
  buyToken_eq : tokens[trade.buyTokenIndex.value]? = some order.buyToken

/-- An announced swap through liquidity is two calls: its input token lets the router draw
the input, and the router swaps it for the output, paid to the settlement contract. -/
structure SwapAgrees (liquidity : Liquidity) (contract : Address) (deadline : UInt32)
    (announced : AnnouncedSwap) (approval exchange : ContractCall) : Prop where
  liquidity_eq : announced.id = liquidity.id
  approval_target : approval.target = announced.inputToken
  approval_value : approval.value = .zero
  approval_carries : approve.Carries approval.callData ⟨liquidity.router, announced.inputAmount⟩
  exchange_target : exchange.target = liquidity.router
  exchange_value : exchange.value = .zero
  exchange_carries : swap.Carries exchange.callData {
    amountIn := announced.inputAmount
    amountOutMin := announced.outputAmount
    path := [announced.inputToken, announced.outputToken]
    recipient := contract
    deadline := .ofNat deadline.toNat }

theorem Settlement.Fills.agrees {tokens : List Address} {order : Order} {trade : Trade}
    (fills : Settlement.Fills tokens order trade) {fulfillment : AnnouncedFulfillment}
    (told : order.announced = .fulfillment fulfillment) :
    TradeAgrees tokens order fulfillment trade := by
  obtain ⟨sellIndex, buyIndex, rfl, sell, buy⟩ := fills
  cases told
  exact ⟨rfl, rfl, sell, buy⟩

theorem LiquiditySwap.routed_agrees (swap : LiquiditySwap) (contract : Address)
    (deadline : UInt32) {used : AnnouncedSwap} (told : swap.announced = .liquidity used) :
    SwapAgrees swap.liquidity contract deadline used
      (swap.routed contract deadline).approval (swap.routed contract deadline).exchange := by
  cases told
  exact ⟨rfl, rfl, rfl, approve_carries _, rfl, rfl, swap_carries rfl⟩

namespace Settlement

variable {solution : Solution} {contract : Address} {settlement : Settlement}

theorem trade_agrees (settles : ofSolution solution contract = .ok settlement) {place : Nat}
    {fulfillment : AnnouncedFulfillment}
    (found : (solution.trades.map Order.announced)[place]? = some (.fulfillment fulfillment)) :
    ∃ order trade, solution.trades[place]? = some order ∧
      settlement.trades[place]? = some trade ∧
      TradeAgrees settlement.tokens order fulfillment trade := by
  obtain ⟨tokens, -, filled⟩ := ofSolution_ok settles
  rw [List.getElem?_map] at found
  obtain ⟨order, inPlace, told⟩ := Option.map_eq_some_iff.mp found
  obtain ⟨trade, traded, fills⟩ := exists_trade filled inPlace
  rw [tokens]
  exact ⟨order, trade, inPlace, traded, fills.agrees told⟩

theorem swap_agrees (settles : ofSolution solution contract = .ok settlement) {place : Nat}
    {used : AnnouncedSwap}
    (found : (solution.swaps.map LiquiditySwap.announced)[place]? = some (.liquidity used)) :
    ∃ swap approval exchange, solution.swaps[place]? = some swap ∧
      (settlement.call false).intraInteractions[2 * place]? = some approval ∧
      (settlement.call false).intraInteractions[2 * place + 1]? = some exchange ∧
      SwapAgrees swap.liquidity contract (commonValidity solution.trades) used approval
        exchange := by
  rw [List.getElem?_map] at found
  obtain ⟨swap, inPlace, told⟩ := Option.map_eq_some_iff.mp found
  have calls := getElem?_flatMap_calls (routedSwaps solution contract) place
  rw [← intraInteractions_call_false settles, routedSwaps, List.getElem?_map, inPlace] at calls
  exact ⟨swap, _, _, inPlace, calls.1, calls.2, swap.routed_agrees _ _ told⟩

/-- The announcement of a solution and the call that settles it agree, position by
position: on the price of every token, on every trade and on every swap. As for every
calldata, there must be fewer bytes than a word can count. -/
theorem calldata_agrees_with_announcement
    (settles : ofSolution solution contract = .ok settlement) (id : UInt64) (auctionId : Int64)
    (fits : (settlement.calldata auctionId).uninternalized.length < Amount.limit) :
    let announced := Candidate.announced ⟨id, solution⟩
    ∃ call,
      settle.decode (withoutMetadata (settlement.calldata auctionId).uninternalized) =
        some call ∧
      call.tokens.length = call.clearingPrices.length ∧
      call.tokens.zip call.clearingPrices = announced.prices.entries ∧
      call.trades.length = announced.trades.length ∧
      announced.trades.length = solution.trades.length ∧
      (∀ (place : Nat) fulfillment,
        announced.trades[place]? = some (.fulfillment fulfillment) →
        ∃ order trade, solution.trades[place]? = some order ∧ call.trades[place]? = some trade ∧
          TradeAgrees call.tokens order fulfillment trade) ∧
      call.intraInteractions.length = 2 * announced.interactions.length ∧
      announced.interactions.length = solution.swaps.length ∧
      ∀ (place : Nat) used, announced.interactions[place]? = some (.liquidity used) →
        ∃ swap approval exchange, solution.swaps[place]? = some swap ∧
          call.intraInteractions[2 * place]? = some approval ∧
          call.intraInteractions[2 * place + 1]? = some exchange ∧
          SwapAgrees swap.liquidity contract (commonValidity solution.trades) used
            approval exchange := by
  intro announced
  obtain ⟨tokens, clearingPrices, filled⟩ := ofSolution_ok settles
  have decoded := settlement.decode_withoutMetadata auctionId false fits
  refine ⟨settlement.call false, decoded, ?_, ?_, ?_, List.length_map _,
    fun place fulfillment found => trade_agrees settles found, ?_, List.length_map _,
    fun place used found => swap_agrees settles found⟩
  · show settlement.tokens.length = settlement.clearingPrices.length
    rw [tokens, clearingPrices]
    exact solution.prices.length_keys_eq_length_values
  · show settlement.tokens.zip settlement.clearingPrices = solution.prices.entries
    rw [tokens, clearingPrices]
    exact solution.prices.zip_keys_values
  · show settlement.trades.length = (solution.trades.map Order.announced).length
    rw [List.length_map]
    exact filled.length_eq.symm
  · show _ = 2 * (solution.swaps.map LiquiditySwap.announced).length
    rw [intraInteractions_call_false settles, length_flatMap_calls, routedSwaps,
      List.length_map, List.length_map]

theorem direct_calldata_agrees :
    let solution := Solution.direct (.ofNat 20 1) (.ofNat 20 2) (.ofNat 20 3) (.ofNat 5)
    ∃ settlement, ofSolution solution .zero = .ok settlement ∧
      (settlement.calldata 7).uninternalized.length < Amount.limit ∧
      ∃ call, settle.decode (withoutMetadata (settlement.calldata 7).uninternalized) = some call ∧
        call.tokens.zip call.clearingPrices = solution.prices.entries ∧
        call.trades.length = 1 ∧ call.intraInteractions.length = 2 := by
  intro solution
  obtain ⟨settlement, settles, fits⟩ := exists_settlement_of_fits 7 false solution .zero
    (by decide +kernel)
  obtain ⟨call, decoded, -, prices, trades, -, -, interactions, -, -⟩ :=
    calldata_agrees_with_announcement settles 0 7 fits
  exact ⟨settlement, settles, fits, call, decoded, prices, trades, interactions⟩

end Settlement

end BatchAuction
