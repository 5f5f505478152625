import BatchAuction.Proofs.Bytes
import BatchAuction.Settlement
import Mathlib.Data.List.Forall2
import Mathlib.Data.List.Perm.Subperm

/-!
# Tokens of a settlement

A settlement names the tokens of a trade by their places among the priced tokens. There
are no more tokens than addresses, so a place always fits the word that holds it.
-/

set_option autoImplicit false

namespace BatchAuction

/-- An order to sell one token for another. -/
def Order.selling (sellToken buyToken : Address) (amount : Amount) : Order where
  uid := .ofNat 56 1
  sellToken := sellToken
  buyToken := buyToken
  sellAmount := amount
  buyAmount := .zero
  validTo := 1700000000
  side := .sell
  receiver := none
  owner := .zero
  partiallyFillable := false
  preInteractions := []
  postInteractions := []
  sellSource := .erc20
  buyDestination := .erc20
  orderClass := .limit
  appData := .ofNat 32 0
  signingScheme := .eip712
  signature := []

theorem AddressMap.length_keys_le {α : Type} (map : AddressMap α) :
    map.keys.length ≤ byteWeight 20 := by
  have distinct : (map.entries.map fun entry => entry.1.toNat).Nodup :=
    (List.pairwise_map.mpr map.ascending).imp fun less => Nat.ne_of_lt less
  have bounded : (map.entries.map fun entry => entry.1.toNat) ⊆ List.range (byteWeight 20) := by
    intro number member
    obtain ⟨entry, -, rfl⟩ := List.mem_map.mp member
    exact List.mem_range.mpr entry.1.toNat_lt
  have short := (List.subperm_of_subset distinct bounded).length_le
  rw [List.length_map, List.length_range] at short
  rw [keys, List.length_map]
  exact short

theorem AddressMap.zip_keys_values {α : Type} (map : AddressMap α) :
    map.keys.zip map.values = map.entries := by
  rw [keys, values, List.zip_map']
  exact List.map_id' map.entries

theorem AddressMap.length_keys_eq_length_values {α : Type} (map : AddressMap α) :
    map.keys.length = map.values.length := by
  rw [keys, values, List.length_map, List.length_map]

namespace Settlement

/-- A trade fills an order completely, and its indices lead to the tokens of the order. -/
def Fills (tokens : List Address) (order : Order) (trade : Contract.Trade) : Prop :=
  ∃ sellIndex buyIndex, trade = order.trade sellIndex buyIndex ∧
    tokens[trade.sellTokenIndex.value]? = some order.sellToken ∧
    tokens[trade.buyTokenIndex.value]? = some order.buyToken

variable {prices : AddressMap Amount}

/-!
## Places of tokens
-/

section

variable {tokens : List Address} {token : Address} {low high place : Nat}

/-- Whatever is found is the token, also among tokens that do not ascend. -/
theorem getElem?_of_search (found : search tokens token low high = some place) :
    tokens[place]? = some token := by
  fun_induction search tokens token low high with
  | case1 => cases found
  | case2 low high _ middle inPlace =>
      rw [← Option.some.inj found]
      exact inPlace
  | case3 low high _ middle _ _ _ _ ih => exact ih found
  | case4 low high _ middle _ _ _ _ ih => exact ih found
  | case5 => cases found

/-- Ascending tokens compare as their places do. -/
theorem toNat_lt_iff_place_lt
    (ascending : tokens.Pairwise fun earlier later => earlier.toNat < later.toNat)
    {other : Address} {otherPlace : Nat} (inPlace : tokens[place]? = some token)
    (otherInPlace : tokens[otherPlace]? = some other) :
    token.toNat < other.toNat ↔ place < otherPlace := by
  obtain ⟨inside, rfl⟩ := List.getElem?_eq_some_iff.mp inPlace
  obtain ⟨otherInside, rfl⟩ := List.getElem?_eq_some_iff.mp otherInPlace
  have ordered := List.pairwise_iff_getElem.mp ascending
  constructor
  · intro less
    rcases Nat.lt_trichotomy place otherPlace with before | rfl | after
    · exact before
    · exact absurd less (Nat.lt_irrefl _)
    · exact absurd less (Nat.lt_asymm (ordered otherPlace place otherInside inside after))
  · exact ordered place otherPlace inside otherInside

/-- Among ascending tokens the place of a token stays between the two places that are left,
so halving leads to it. -/
theorem search_of_getElem?
    (ascending : tokens.Pairwise fun earlier later => earlier.toNat < later.toNat)
    (inPlace : tokens[place]? = some token) (above : low ≤ place) (below : place < high)
    (inside : high ≤ tokens.length) : search tokens token low high = some place := by
  fun_induction search tokens token low high with
  | case1 low high _ middle missing =>
      have outside := List.getElem?_eq_none_iff.mp missing
      omega
  | case2 low high _ middle halved =>
      have notBefore := mt (toNat_lt_iff_place_lt ascending halved inPlace).mpr (Nat.lt_irrefl _)
      have notAfter := mt (toNat_lt_iff_place_lt ascending inPlace halved).mpr (Nat.lt_irrefl _)
      rw [Nat.le_antisymm (Nat.le_of_not_lt notAfter) (Nat.le_of_not_lt notBefore)]
  | case3 low high _ middle found halved different less ih =>
      exact ih ((toNat_lt_iff_place_lt ascending halved inPlace).mp less) below inside
  | case4 low high _ middle found halved different notLess ih =>
      have notBefore := mt (toNat_lt_iff_place_lt ascending halved inPlace).mpr notLess
      have elsewhere : place ≠ middle := by
        rintro rfl
        exact different (Option.some.inj (halved.symm.trans inPlace))
      apply ih above
      · omega
      · omega
  | case5 => omega

/-- Among ascending tokens the search finds the token, wherever it is. -/
theorem search_eq_some_iff
    (ascending : tokens.Pairwise fun earlier later => earlier.toNat < later.toNat) :
    search tokens token 0 tokens.length = some place ↔ tokens[place]? = some token := by
  constructor
  · exact getElem?_of_search
  · intro inPlace
    obtain ⟨inside, -⟩ := List.getElem?_eq_some_iff.mp inPlace
    exact search_of_getElem? ascending inPlace (Nat.zero_le place) inside (Nat.le_refl _)

end

theorem getElem?_of_tokenIndex {token : Address} {index : Nat}
    (found : tokenIndex prices token = .ok index) :
    prices.keys[(Amount.ofNat index).value]? = some token := by
  unfold tokenIndex at found
  split at found
  · rename_i position placed
    cases found
    have inPlace := getElem?_of_search placed
    obtain ⟨inside, -⟩ := List.getElem?_eq_some_iff.mp inPlace
    have room : byteWeight 20 ≤ Amount.limit := by decide
    have fits : index < Amount.limit :=
      Nat.lt_of_lt_of_le inside (Nat.le_trans prices.length_keys_le room)
    have exact_index : (Amount.ofNat index).value = index := Nat.mod_eq_of_lt fits
    rw [exact_index, inPlace]
  · cases found

theorem tradesOf_fills {orders : List Order} {trades : List Contract.Trade}
    (accepted : tradesOf prices orders = .ok trades) :
    List.Forall₂ (Fills prices.keys) orders trades := by
  induction orders generalizing trades with
  | nil => cases accepted; exact .nil
  | cons order rest ih =>
      unfold tradesOf at accepted
      cases sell : tokenIndex prices order.sellToken with
      | error fault => rw [sell] at accepted; cases accepted
      | ok sellIndex =>
          cases buy : tokenIndex prices order.buyToken with
          | error fault => rw [sell, buy] at accepted; cases accepted
          | ok buyIndex =>
              cases others : tradesOf prices rest with
              | error fault => rw [sell, buy, others] at accepted; cases accepted
              | ok restTrades =>
                  rw [sell, buy, others] at accepted
                  cases accepted
                  exact .cons ⟨sellIndex, buyIndex, rfl, getElem?_of_tokenIndex sell,
                    getElem?_of_tokenIndex buy⟩ (ih others)

/-- Every order is filled by the trade in its place. -/
theorem exists_trade {tokens : List Address} {orders : List Order} {trades : List Contract.Trade}
    (filled : List.Forall₂ (Fills tokens) orders trades) {place : Nat} {order : Order}
    (found : orders[place]? = some order) :
    ∃ trade, trades[place]? = some trade ∧ Fills tokens order trade := by
  induction filled generalizing place with
  | nil => cases found
  | cons fills _ ih =>
      cases place with
      | zero => cases found; exact ⟨_, rfl, fills⟩
      | succ place => exact ih found

/-- A settlement is put together from the trades of its orders and from what it takes over
from its solution. -/
theorem exists_trades_of_ofSolution {solution : Solution} {contract : Address}
    {settlement : Settlement} (settles : ofSolution solution contract = .ok settlement) :
    ∃ trades, tradesOf solution.prices solution.trades = .ok trades ∧
      settlement = {
        tokens := solution.prices.keys
        clearingPrices := solution.prices.values
        trades := trades
        preInteractions :=
          solution.trades.flatMap fun order => order.preInteractions.map Interaction.hook
        intraInteractions := solution.swaps.flatMap fun swap =>
          (swap.routed contract (commonValidity solution.trades)).interactions
        postInteractions :=
          solution.trades.flatMap fun order => order.postInteractions.map Interaction.hook } := by
  unfold ofSolution at settles
  cases accepted : tradesOf solution.prices solution.trades with
  | error fault => rw [accepted] at settles; cases settles
  | ok trades =>
      rw [accepted] at settles
      cases settles
      exact ⟨trades, rfl, rfl⟩

/-- The tokens, prices and trades of a settlement. -/
theorem ofSolution_ok {solution : Solution} {contract : Address} {settlement : Settlement}
    (settles : ofSolution solution contract = .ok settlement) :
    settlement.tokens = solution.prices.keys ∧
      settlement.clearingPrices = solution.prices.values ∧
      List.Forall₂ (Fills solution.prices.keys) solution.trades settlement.trades := by
  obtain ⟨trades, accepted, rfl⟩ := exists_trades_of_ofSolution settles
  exact ⟨rfl, rfl, tradesOf_fills accepted⟩

end Settlement

end BatchAuction
