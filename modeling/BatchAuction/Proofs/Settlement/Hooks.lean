import BatchAuction.Proofs.Settlement.Internalized

/-!
# Hooks and deadlines

The hooks of all traded orders run around the swaps of a settlement, in the order of the
trades. The swaps share one deadline, the earliest time at which a traded order ends.
-/

set_option autoImplicit false

namespace BatchAuction

open Contract

def lastTime : UInt32 := .ofNat (UInt32.size - 1)

theorem le_lastTime (time : UInt32) : time ≤ lastTime := by
  rw [UInt32.le_iff_toNat_le]
  exact Nat.le_of_lt_succ time.toNat_lt

theorem commonValidity_of_min? {orders : List Order} {earliest : UInt32}
    (least : (orders.map (·.validTo)).min? = some earliest) :
    commonValidity orders = earliest := by
  unfold commonValidity
  rw [List.foldl_min, least]
  show min lastTime earliest = earliest
  rw [Std.min_eq_if]
  split
  · rename_i later
    exact UInt32.le_antisymm later (le_lastTime earliest)
  · rfl

theorem commonValidity_mem {orders : List Order} (traded : orders ≠ []) :
    commonValidity orders ∈ orders.map (·.validTo) := by
  cases least : (orders.map (·.validTo)).min? with
  | none =>
      rw [List.min?_eq_none_iff, List.map_eq_nil_iff] at least
      exact absurd least traded
  | some earliest =>
      rw [commonValidity_of_min? least]
      exact (List.min?_eq_some_iff.mp least).1

theorem commonValidity_le {orders : List Order} {time : UInt32}
    (member : time ∈ orders.map (·.validTo)) : commonValidity orders ≤ time := by
  cases least : (orders.map (·.validTo)).min? with
  | none =>
      rw [List.min?_eq_none_iff.mp least] at member
      cases member
  | some earliest =>
      rw [commonValidity_of_min? least]
      exact (List.min?_eq_some_iff.mp least).2 time member

def LiquiditySwap.swapCall (swap : LiquiditySwap) (contract : Address) (deadline : UInt32) :
    SwapCall where
  amountIn := swap.input.amount
  amountOutMin := swap.output.amount
  path := [swap.input.token, swap.output.token]
  recipient := contract
  deadline := .ofNat deadline.toNat

theorem LiquiditySwap.deadline_swapCall (swap : LiquiditySwap) (contract : Address)
    (deadline : UInt32) : (swap.swapCall contract deadline).deadline.value = deadline.toNat := by
  have room : UInt32.size ≤ Amount.limit := by decide
  exact Nat.mod_eq_of_lt (Nat.lt_of_lt_of_le deadline.toNat_lt room)

/-- The swaps among some interactions, read from their call data. -/
def swapCalls (interactions : List ContractCall) : List SwapCall :=
  interactions.filterMap fun interaction => swap.decode interaction.callData

theorem swapCalls_calls (used : LiquiditySwap) (contract : Address) (deadline : UInt32) :
    swapCalls (used.routed contract deadline).calls = [used.swapCall contract deadline] := by
  have approval : swap.decode (used.routed contract deadline).approval.callData = none :=
    decode_swap_approve _
  have exchange : swap.decode (used.routed contract deadline).exchange.callData =
      some (used.swapCall contract deadline) := (swap_carries rfl).2
  simp only [RoutedSwap.calls, swapCalls, List.filterMap_cons, approval, exchange,
    List.filterMap_nil]

/-- Approvals are no swaps, so every swap is read once. -/
theorem swapCalls_allCalls (contract : Address) (deadline : UInt32)
    (swaps : List LiquiditySwap) :
    swapCalls (LiquiditySwap.allCalls contract deadline swaps) =
      swaps.map fun used => used.swapCall contract deadline := by
  induction swaps with
  | nil => rfl
  | cons used rest ih =>
      calc swapCalls (LiquiditySwap.allCalls contract deadline (used :: rest))
          = swapCalls (used.routed contract deadline).calls ++
              swapCalls (LiquiditySwap.allCalls contract deadline rest) :=
            List.filterMap_append
        _ = (used :: rest).map fun used => used.swapCall contract deadline := by
            rw [swapCalls_calls, ih]
            rfl

namespace Settlement

variable {solution : Solution} {contract : Address} {settlement : Settlement}

theorem Fills.validTo_eq {tokens : List Address} {order : Order} {trade : Trade}
    (fills : Fills tokens order trade) : trade.validTo = order.validTo := by
  obtain ⟨sellIndex, buyIndex, rfl, -, -⟩ := fills
  rfl

theorem map_validTo_eq {tokens : List Address} {orders : List Order} {trades : List Trade}
    (filled : List.Forall₂ (Fills tokens) orders trades) :
    trades.map (·.validTo) = orders.map (·.validTo) := by
  induction filled with
  | nil => rfl
  | cons fills _ ih => rw [List.map_cons, List.map_cons, fills.validTo_eq, ih]

theorem swapCalls_call (settles : ofSolution solution contract = .ok settlement)
    (internalized : Bool) :
    swapCalls (settlement.call internalized).intraInteractions =
      (solution.swaps.filter fun used => !(internalized && used.internalize)).map
        fun used => used.swapCall contract (commonValidity solution.trades) := by
  rw [intraInteractions_call settles, swapCalls_allCalls]

/-- The call that settles runs the hooks of all traded orders, each in the order of the
trades, and all its swaps have one deadline, with or without those that may be left out. No
trade ends before the deadline, and some trade ends with it; without trades it is the last
time that can be told. For the call to be read back the calldata must have fewer bytes than
a word can count. -/
theorem hooks_in_order_around_timely_swaps
    (settles : ofSolution solution contract = .ok settlement) :
    ∃ deadline : UInt32,
      (∀ order ∈ solution.trades, deadline ≤ order.validTo) ∧
      (solution.trades ≠ [] → ∃ order ∈ solution.trades, order.validTo = deadline) ∧
      (solution.trades = [] → deadline.toNat = 4294967295) ∧
      ∀ auctionId internalized,
        (settlement.encode auctionId internalized).length < Amount.limit →
        ∃ call,
          settle.decode (withoutMetadata (settlement.encode auctionId internalized)) =
            some call ∧
          call.preInteractions = solution.trades.flatMap (·.preInteractions) ∧
          call.postInteractions = solution.trades.flatMap (·.postInteractions) ∧
          call.trades.map (·.validTo) = solution.trades.map (·.validTo) ∧
          swapCalls call.intraInteractions =
            (solution.swaps.filter fun used => !(internalized && used.internalize)).map
              (fun used => used.swapCall contract deadline) ∧
          ∀ swapCall ∈ swapCalls call.intraInteractions,
            swapCall.deadline.value = deadline.toNat := by
  obtain ⟨-, -, filled⟩ := ofSolution_ok settles
  refine ⟨commonValidity solution.trades, ?_, ?_, ?_, ?_⟩
  · intro order member
    exact commonValidity_le (List.mem_map_of_mem member)
  · intro traded
    exact List.mem_map.mp (commonValidity_mem traded)
  · intro untraded
    rw [untraded]
    rfl
  · intro auctionId internalized fits
    obtain ⟨pre, -, post⟩ := phases_call settles internalized
    have swaps := swapCalls_call settles internalized
    refine ⟨settlement.call internalized,
      settlement.decode_withoutMetadata auctionId internalized fits, pre, post,
      map_validTo_eq filled, swaps, ?_⟩
    rw [swaps]
    intro swapCall member
    obtain ⟨used, -, rfl⟩ := List.mem_map.mp member
    exact used.deadline_swapCall contract _

/-- The order that ends first is traded last and has two hooks before its trade. -/
theorem last_order_sets_deadline :
    let pool := Solution.direct (.ofNat 20 1) (.ofNat 20 2) (.ofNat 20 3) (.ofNat 5)
    let hook (target : Nat) : ContractCall := ⟨.ofNat 20 target, .ofNat 9, [1, 2]⟩
    let first := { Order.selling (.ofNat 20 1) (.ofNat 20 2) (.ofNat 5) with
      preInteractions := [hook 4] }
    let second := { first with validTo := 1600000000, preInteractions := [hook 5, hook 6] }
    let solution : Solution := { pool with trades := [first, second] }
    ∃ settlement, ofSolution solution .zero = .ok settlement ∧
      (settlement.encode 7 false).length < Amount.limit ∧
      ∃ call, settle.decode (withoutMetadata (settlement.encode 7 false)) = some call ∧
        call.preInteractions = [hook 4, hook 5, hook 6] ∧
        (swapCalls call.intraInteractions).length = 1 ∧
        ∀ swapCall ∈ swapCalls call.intraInteractions,
          swapCall.deadline.value ≤ 1600000000 := by
  intro pool hook first second solution
  obtain ⟨settlement, settles, fits⟩ := exists_settlement_of_fits 7 false solution .zero
    (by decide +kernel)
  obtain ⟨deadline, early, -, -, calls⟩ := hooks_in_order_around_timely_swaps settles
  obtain ⟨call, decoded, pre, -, -, swaps, timely⟩ := calls 7 false fits
  refine ⟨settlement, settles, fits, call, decoded, pre, ?_, ?_⟩
  · rw [swaps]
    rfl
  · intro swapCall member
    rw [timely swapCall member]
    exact UInt32.le_iff_toNat_le.mp (early second (List.mem_cons_of_mem _ List.mem_cons_self))

end Settlement

end BatchAuction
