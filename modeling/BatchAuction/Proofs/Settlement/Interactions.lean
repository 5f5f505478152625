import BatchAuction.Proofs.Settlement.Tokens

/-!
# Interactions of a settlement

Every call carries a flag of its own that says whether it may be left out. Hooks carry none
and stay. The two calls of a swap carry that of the swap, so they stay together or are left
out together.
-/

set_option autoImplicit false

namespace BatchAuction.Settlement

section

variable (internalized : Bool)

theorem kept_append (earlier later : List Interaction) :
    kept internalized (earlier ++ later) =
      kept internalized earlier ++ kept internalized later := by
  simp [kept]

/-- Hooks stay. -/
theorem kept_map_hook (calls : List ContractCall) :
    kept internalized (calls.map Interaction.hook) = calls := by
  simp [kept, Interaction.hook, List.filter_map, Function.comp_def]

/-- The hooks of all orders stay in the order of the orders. -/
theorem kept_flatMap_hook (hooks : Order → List ContractCall) (orders : List Order) :
    kept internalized (orders.flatMap fun order => (hooks order).map Interaction.hook) =
      orders.flatMap hooks := by
  induction orders with
  | nil => rfl
  | cons order rest ih =>
      rw [List.flatMap_cons, kept_append, kept_map_hook, ih, List.flatMap_cons]

theorem kept_interactions (swap : RoutedSwap) :
    kept internalized swap.interactions =
      if internalized && swap.internalize then [] else swap.calls := by
  unfold kept RoutedSwap.interactions RoutedSwap.calls
  cases internalized <;> cases swap.internalize <;> rfl

/-- Swaps stay or are left out as pairs of calls. -/
theorem kept_flatMap_interactions (swaps : List RoutedSwap) :
    kept internalized (swaps.flatMap RoutedSwap.interactions) =
      (swaps.filter fun swap => !(internalized && swap.internalize)).flatMap
        RoutedSwap.calls := by
  induction swaps with
  | nil => rfl
  | cons swap rest ih =>
      rw [List.flatMap_cons, kept_append, kept_interactions, ih, List.filter_cons]
      cases internalized && swap.internalize <;> rfl

end

theorem getElem?_flatMap_calls (swaps : List RoutedSwap) (place : Nat) :
    (swaps.flatMap RoutedSwap.calls)[2 * place]? = swaps[place]?.map (·.approval) ∧
      (swaps.flatMap RoutedSwap.calls)[2 * place + 1]? = swaps[place]?.map (·.exchange) := by
  induction swaps generalizing place with
  | nil => exact ⟨rfl, rfl⟩
  | cons swap rest ih =>
      cases place with
      | zero => exact ⟨rfl, rfl⟩
      | succ place =>
          obtain ⟨approval, exchange⟩ := ih place
          exact ⟨approval, exchange⟩

theorem length_flatMap_calls (swaps : List RoutedSwap) :
    (swaps.flatMap RoutedSwap.calls).length = 2 * swaps.length := by
  induction swaps with
  | nil => rfl
  | cons swap rest ih =>
      rw [List.flatMap_cons, List.length_append, ih, List.length_cons, Nat.mul_succ, Nat.add_comm]
      rfl

variable {solution : Solution} {contract : Address} {settlement : Settlement}

/-- The swaps of a solution as pairs of calls. -/
def routedSwaps (solution : Solution) (contract : Address) : List RoutedSwap :=
  solution.swaps.map fun swap => swap.routed contract (commonValidity solution.trades)

/-- The three phases of the call that settles a solution. -/
theorem phases_call (settles : ofSolution solution contract = .ok settlement)
    (internalized : Bool) :
    let call := settlement.call internalized
    call.preInteractions = solution.trades.flatMap (·.preInteractions) ∧
      call.intraInteractions =
        ((routedSwaps solution contract).filter fun swap =>
          !(internalized && swap.internalize)).flatMap RoutedSwap.calls ∧
      call.postInteractions = solution.trades.flatMap (·.postInteractions) := by
  obtain ⟨trades, -, rfl⟩ := exists_trades_of_ofSolution settles
  refine ⟨kept_flatMap_hook internalized _ _, ?_, kept_flatMap_hook internalized _ _⟩
  rw [← kept_flatMap_interactions, routedSwaps, List.flatMap_map]
  rfl

theorem intraInteractions_call_false (settles : ofSolution solution contract = .ok settlement) :
    (settlement.call false).intraInteractions =
      (routedSwaps solution contract).flatMap RoutedSwap.calls := by
  obtain ⟨-, swaps, -⟩ := phases_call settles false
  simpa using swaps

end BatchAuction.Settlement
