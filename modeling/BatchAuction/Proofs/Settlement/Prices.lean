import BatchAuction.Proofs.AddressMap
import BatchAuction.Proofs.Settlement.Tokens

/-!
# Solutions that can be settled

A solution can be settled exactly if it prices both tokens of each of its trades. Its
settlement lists the priced tokens in ascending order, however the prices were listed.
-/

set_option autoImplicit false

namespace BatchAuction

/-- The tokens of an order, in the order in which they are looked up. -/
def Order.tokens (order : Order) : List Address := [order.sellToken, order.buyToken]

namespace Settlement

variable {prices : AddressMap Amount} {orders : List Order} {token : Address}

/-- Whether both tokens of an order have a price. -/
def Prices (prices : AddressMap Amount) (order : Order) : Prop :=
  prices.contains order.sellToken = true ∧ prices.contains order.buyToken = true

/-- The first token of some orders that has no price. -/
def firstUnpriced (prices : AddressMap Amount) (orders : List Order) : Option Address :=
  (orders.flatMap Order.tokens).find? fun token => !prices.contains token

theorem firstUnpriced_eq_none_iff :
    firstUnpriced prices orders = none ↔ ∀ order ∈ orders, Prices prices order := by
  simp [firstUnpriced, Order.tokens, Prices]

theorem exists_tokenIndex (priced : prices.contains token = true) :
    ∃ index, tokenIndex prices token = .ok index := by
  have listed := AddressMap.contains_iff_mem_keys.mp priced
  obtain ⟨index, inPlace⟩ := List.getElem?_of_mem listed
  refine ⟨index, ?_⟩
  unfold tokenIndex
  rw [(search_eq_some_iff prices.ascending_keys).mpr inPlace]

theorem tokenIndex_of_unpriced (unpriced : ¬ prices.contains token = true) :
    tokenIndex prices token = .error (.missingPrice token) := by
  unfold tokenIndex
  split
  · rename_i index found
    have listed := List.mem_of_getElem? (getElem?_of_search found)
    exact absurd (AddressMap.contains_iff_mem_keys.mpr listed) unpriced
  · rfl

theorem exists_tradesOf (priced : ∀ order ∈ orders, Prices prices order) :
    ∃ trades, tradesOf prices orders = .ok trades := by
  induction orders with
  | nil => exact ⟨[], rfl⟩
  | cons order rest ih =>
      obtain ⟨sold, bought⟩ := priced order List.mem_cons_self
      obtain ⟨sellIndex, sell⟩ := exists_tokenIndex sold
      obtain ⟨buyIndex, buy⟩ := exists_tokenIndex bought
      obtain ⟨trades, others⟩ := ih fun other member => priced other (List.mem_cons_of_mem _ member)
      refine ⟨order.trade sellIndex buyIndex :: trades, ?_⟩
      rw [tradesOf, sell, buy, others]
      rfl

theorem tradesOf_of_firstUnpriced (first : firstUnpriced prices orders = some token) :
    tradesOf prices orders = .error (.missingPrice token) := by
  induction orders with
  | nil => cases first
  | cons order rest ih =>
      rw [firstUnpriced, List.flatMap_cons, Order.tokens, List.cons_append, List.cons_append,
        List.nil_append] at first
      by_cases sold : prices.contains order.sellToken = true
      · obtain ⟨sellIndex, sell⟩ := exists_tokenIndex sold
        rw [List.find?_cons_of_neg (by simpa using sold)] at first
        by_cases bought : prices.contains order.buyToken = true
        · obtain ⟨buyIndex, buy⟩ := exists_tokenIndex bought
          rw [List.find?_cons_of_neg (by simpa using bought)] at first
          rw [tradesOf, sell, buy, ih first]
          rfl
        · rw [List.find?_cons_of_pos (by simpa using bought)] at first
          cases first
          rw [tradesOf, sell, tokenIndex_of_unpriced bought]
          rfl
      · rw [List.find?_cons_of_pos (by simpa using sold)] at first
        cases first
        rw [tradesOf, tokenIndex_of_unpriced sold]
        rfl

variable {solution : Solution}

/-- A solution that prices the tokens of its trades can be settled. -/
theorem exists_ofSolution (priced : ∀ order ∈ solution.trades, Prices solution.prices order)
    (contract : Address) : ∃ settlement, ofSolution solution contract = .ok settlement := by
  obtain ⟨trades, accepted⟩ := exists_tradesOf priced
  unfold ofSolution
  rw [accepted]
  exact ⟨_, rfl⟩

theorem ofSolution_of_firstUnpriced
    (first : firstUnpriced solution.prices solution.trades = some token) (contract : Address) :
    ofSolution solution contract = .error (.missingPrice token) := by
  unfold ofSolution
  rw [tradesOf_of_firstUnpriced first]
  rfl

theorem ofSolution_eq_error_iff {contract : Address} {error : SettlementError} :
    ofSolution solution contract = .error error ↔
      ∃ token, firstUnpriced solution.prices solution.trades = some token ∧
        error = .missingPrice token := by
  constructor
  · intro refused
    cases first : firstUnpriced solution.prices solution.trades with
    | none =>
        obtain ⟨settlement, settles⟩ :=
          exists_ofSolution (firstUnpriced_eq_none_iff.mp first) contract
        rw [settles] at refused
        cases refused
    | some token =>
        rw [ofSolution_of_firstUnpriced first contract] at refused
        exact ⟨token, rfl, (Except.error.inj refused).symm⟩
  · rintro ⟨token, first, rfl⟩
    exact ofSolution_of_firstUnpriced first contract

theorem exists_ofSolution_iff {contract : Address} :
    (∃ settlement, ofSolution solution contract = .ok settlement) ↔
      ∀ order ∈ solution.trades, Prices solution.prices order := by
  constructor
  · rintro ⟨settlement, settles⟩
    rw [← firstUnpriced_eq_none_iff, Option.eq_none_iff_forall_ne_some]
    intro token first
    rw [ofSolution_of_firstUnpriced first contract] at settles
    cases settles
  · intro priced
    exact exists_ofSolution priced contract

variable {settlement : Settlement} {contract : Address}

theorem mem_tokens_iff (settles : ofSolution solution contract = .ok settlement) :
    token ∈ settlement.tokens ↔ solution.prices.contains token = true := by
  obtain ⟨tokens, -, -⟩ := ofSolution_ok settles
  rw [tokens]
  exact AddressMap.contains_iff_mem_keys.symm

theorem price_in_place (settles : ofSolution solution contract = .ok settlement) {place : Nat}
    (found : settlement.tokens[place]? = some token) :
    ∃ price, settlement.clearingPrices[place]? = some price ∧
      solution.prices.get? token = some price := by
  have priced : solution.prices.contains token = true :=
    (mem_tokens_iff settles).mp (List.mem_of_getElem? found)
  obtain ⟨price, held⟩ := Option.isSome_iff_exists.mp priced
  obtain ⟨tokens, clearingPrices, -⟩ := ofSolution_ok settles
  rw [tokens] at found
  refine ⟨price, ?_, held⟩
  rw [clearingPrices, ← AddressMap.get?_of_getElem?_keys found]
  exact held

/-- A solution is settled unless a token of a trade has no price, and the first such token
is refused. The tokens are those that have a price, ascending however the prices were
listed, each in the place of its price, and the indices of a trade lead to the tokens of the
order in the same place. -/
theorem tokens_and_indices_of_prices (solution : Solution) (contract : Address) :
    ((∃ settlement, ofSolution solution contract = .ok settlement) ↔
        ∀ order ∈ solution.trades, Prices solution.prices order) ∧
      (∀ error, ofSolution solution contract = .error error ↔
        ∃ token, firstUnpriced solution.prices solution.trades = some token ∧
          error = .missingPrice token) ∧
      ∀ settlement, ofSolution solution contract = .ok settlement →
        settlement.tokens.Pairwise (fun earlier later => earlier.toNat < later.toNat) ∧
        (∀ token, token ∈ settlement.tokens ↔ solution.prices.contains token = true) ∧
        (∀ listed : List (Address × Amount), (listed.map (·.1)).Nodup →
          solution.prices = .ofList listed → settlement.tokens.Perm (listed.map (·.1))) ∧
        settlement.clearingPrices.length = settlement.tokens.length ∧
        (∀ (place : Nat) token, settlement.tokens[place]? = some token →
          ∃ price, settlement.clearingPrices[place]? = some price ∧
            solution.prices.get? token = some price) ∧
        settlement.trades.length = solution.trades.length ∧
        ∀ (place : Nat) order, solution.trades[place]? = some order →
          ∃ trade, settlement.trades[place]? = some trade ∧
            settlement.tokens[trade.sellTokenIndex.value]? = some order.sellToken ∧
            settlement.tokens[trade.buyTokenIndex.value]? = some order.buyToken := by
  refine ⟨exists_ofSolution_iff, fun error => ofSolution_eq_error_iff, ?_⟩
  intro settlement settles
  obtain ⟨tokens, clearingPrices, filled⟩ := ofSolution_ok settles
  refine ⟨?_, fun token => mem_tokens_iff settles, ?_, ?_,
    fun place token found => price_in_place settles found, filled.length_eq.symm, ?_⟩
  · rw [tokens]
    exact solution.prices.ascending_keys
  · intro listed distinct priced
    rw [tokens, priced]
    exact AddressMap.keys_ofList_perm distinct
  · rw [tokens, clearingPrices]
    exact solution.prices.length_keys_eq_length_values.symm
  · intro place order inPlace
    obtain ⟨trade, traded, _, _, -, sell, buy⟩ := exists_trade filled inPlace
    rw [tokens]
    exact ⟨trade, traded, sell, buy⟩

/-- Prices are listed in descending order, one of them of a token that is not traded, and
the order is traded twice. -/
theorem tokens_ascend_of_descending_prices :
    let listed := [(.ofNat 20 9, .ofNat 1), (.ofNat 20 4, .ofNat 2), (.ofNat 20 2, .ofNat 3)]
    let order := Order.selling (.ofNat 20 9) (.ofNat 20 2) (.ofNat 5)
    let solution : Solution := ⟨.ofList listed, [order, order], [], none⟩
    ∃ settlement, ofSolution solution .zero = .ok settlement ∧
      settlement.tokens = [.ofNat 20 2, .ofNat 20 4, .ofNat 20 9] ∧
      settlement.tokens.Perm (listed.map (·.1)) ∧ settlement.trades.length = 2 := by
  intro listed order solution
  obtain ⟨settled, -, settlements⟩ := tokens_and_indices_of_prices solution .zero
  obtain ⟨settlement, settles⟩ := settled.mpr (by unfold Prices; decide +kernel)
  obtain ⟨-, -, permuted, -, -, trades, -⟩ := settlements settlement settles
  have tokens : settlement.tokens = [.ofNat 20 2, .ofNat 20 4, .ofNat 20 9] :=
    (ofSolution_ok settles).1.trans (by decide +kernel)
  exact ⟨settlement, settles, tokens, permuted listed (by decide +kernel) rfl, trades⟩

end Settlement

end BatchAuction
