import BatchAuction.Proofs.Settlement.Calldata
import BatchAuction.Proofs.Settlement.Tokens

/-!
# Terms of a trade

A trade names its tokens by their places, packs the choices of its order into bits and puts
the owner in front of a signature or in its place. Read back by the rules of the settlement
contract, it tells everything that binds the owner of the order.
-/

set_option autoImplicit false

namespace BatchAuction

/-- What shows that the owner of an order agrees to it. The owner is told where a signature
alone does not lead to it. -/
inductive Authorization where
  | eip712 (signature : List UInt8)
  | ethSign (signature : List UInt8)
  | eip1271 (owner : Address) (signature : List UInt8)
  | preSign (owner : Address)
deriving DecidableEq

/-- What the owner of an order has agreed to, and how far the order is filled. -/
structure Terms where
  sellToken : Address
  buyToken : Address
  receiver : Address
  sellAmount : Amount
  buyAmount : Amount
  validTo : UInt32
  appData : Digest
  feeAmount : Amount
  executedAmount : Amount
  side : Side
  partiallyFillable : Bool
  sellSource : SellSource
  buyDestination : BuyDestination
  authorization : Authorization
deriving DecidableEq

namespace Order

def authorization (order : Order) : Authorization :=
  match order.signingScheme with
  | .eip712 => .eip712 order.signature
  | .ethSign => .ethSign order.signature
  | .eip1271 => .eip1271 order.owner order.signature
  | .preSign => .preSign order.owner

/-- The terms of an order that is filled completely and without a fee. -/
def terms (order : Order) : Terms where
  sellToken := order.sellToken
  buyToken := order.buyToken
  receiver := order.receiver.getD .zero
  sellAmount := order.sellAmount
  buyAmount := order.buyAmount
  validTo := order.validTo
  appData := order.appData
  feeAmount := .zero
  executedAmount := order.fixedAmount
  side := order.side
  partiallyFillable := order.partiallyFillable
  sellSource := order.sellSource
  buyDestination := order.buyDestination
  authorization := order.authorization

end Order

namespace Contract.Trade

/-- So many bits of the flags as a number, from a place on that counts from the lowest. -/
def flagBits (trade : Trade) (place count : Nat) : Nat :=
  (trade.flags.value >>> place) % (1 <<< count)

def side (trade : Trade) : Side := if trade.flagBits 0 1 = 1 then .buy else .sell

def partiallyFillable (trade : Trade) : Bool := trade.flagBits 1 1 = 1

def sellSource (trade : Trade) : SellSource :=
  match trade.flagBits 2 2 with
  | 2 => .external
  | 3 => .internal
  | _ => .erc20

def buyDestination (trade : Trade) : BuyDestination :=
  if trade.flagBits 4 1 = 1 then .internal else .erc20

def authorization? (trade : Trade) : Option Authorization :=
  match trade.flagBits 5 2 with
  | 0 => some (.eip712 trade.signature)
  | 1 => some (.ethSign trade.signature)
  | 2 => (FixedBytes.ofList? 20 (trade.signature.take 20)).map fun owner =>
      .eip1271 owner (trade.signature.drop 20)
  | _ => (FixedBytes.ofList? 20 trade.signature).map .preSign

/-- Reads the terms of a trade, given the tokens that it names by their places. -/
def terms? (tokens : List Address) (trade : Trade) : Option Terms := do
  let sellToken ← tokens[trade.sellTokenIndex.value]?
  let buyToken ← tokens[trade.buyTokenIndex.value]?
  let authorization ← trade.authorization?
  return {
    sellToken := sellToken
    buyToken := buyToken
    receiver := trade.receiver
    sellAmount := trade.sellAmount
    buyAmount := trade.buyAmount
    validTo := trade.validTo
    appData := trade.appData
    feeAmount := trade.feeAmount
    executedAmount := trade.executedAmount
    side := trade.side
    partiallyFillable := trade.partiallyFillable
    sellSource := trade.sellSource
    buyDestination := trade.buyDestination
    authorization := authorization }

end Contract.Trade

/-!
## Flags
-/

def bitOf (chosen : Bool) : Nat := if chosen then 1 else 0

theorem bitOf_lt (chosen : Bool) : bitOf chosen < 2 := by
  cases chosen <;> decide

namespace Order

theorem sellSourceBits_lt (source : SellSource) : sellSourceBits source < 4 := by
  cases source <;> decide

theorem buyDestinationBit_lt (destination : BuyDestination) :
    buyDestinationBit destination < 2 := by
  cases destination <;> decide

theorem signingSchemeBits_lt (scheme : SigningScheme) : signingSchemeBits scheme < 4 := by
  cases scheme <;> decide

/-- The choices as numbers, each beginning where the one before it ends. -/
theorem flags_eq (order : Order) :
    order.flags = bitOf (order.side = .buy) + 2 * (bitOf order.partiallyFillable +
      2 * (sellSourceBits order.sellSource + 4 * (buyDestinationBit order.buyDestination +
        2 * signingSchemeBits order.signingScheme))) := by
  have partially : (if order.partiallyFillable then 2 else 0) =
      2 * bitOf order.partiallyFillable := by
    cases order.partiallyFillable <;> rfl
  have side : (if order.side = .buy then 1 else 0) = bitOf (order.side = .buy) := by
    cases order.side <;> rfl
  rw [flags, partially, side]
  omega

theorem flags_lt (order : Order) : order.flags < 128 := by
  have side := bitOf_lt (order.side = .buy)
  have partially := bitOf_lt order.partiallyFillable
  have source := sellSourceBits_lt order.sellSource
  have destination := buyDestinationBit_lt order.buyDestination
  have scheme := signingSchemeBits_lt order.signingScheme
  rw [flags_eq]
  omega

variable (order : Order) (sellIndex buyIndex : Nat)

theorem value_flags_trade : (order.trade sellIndex buyIndex).flags.value = order.flags := by
  have room : 128 ≤ Amount.limit := by decide
  exact Nat.mod_eq_of_lt (Nat.lt_of_lt_of_le order.flags_lt room)

/-- Every choice is read from its own bits, and no other bit is set. -/
theorem flagBits_trade :
    let trade := order.trade sellIndex buyIndex
    trade.flagBits 0 1 = bitOf (order.side = .buy) ∧
      trade.flagBits 1 1 = bitOf order.partiallyFillable ∧
      trade.flagBits 2 2 = sellSourceBits order.sellSource ∧
      trade.flagBits 4 1 = buyDestinationBit order.buyDestination ∧
      trade.flagBits 5 2 = signingSchemeBits order.signingScheme ∧
      trade.flags.value >>> 7 = 0 := by
  intro trade
  have side := bitOf_lt (order.side = .buy)
  have partially := bitOf_lt order.partiallyFillable
  have source := sellSourceBits_lt order.sellSource
  have destination := buyDestinationBit_lt order.buyDestination
  have scheme := signingSchemeBits_lt order.signingScheme
  have flags : trade.flags.value = order.flags := order.value_flags_trade sellIndex buyIndex
  simp only [Contract.Trade.flagBits, flags, flags_eq, Nat.shiftRight_eq_div_pow,
    Nat.shiftLeft_eq]
  omega

theorem side_trade : (order.trade sellIndex buyIndex).side = order.side := by
  obtain ⟨bits, -⟩ := order.flagBits_trade sellIndex buyIndex
  unfold Contract.Trade.side
  rw [bits]
  cases order.side <;> rfl

theorem partiallyFillable_trade :
    (order.trade sellIndex buyIndex).partiallyFillable = order.partiallyFillable := by
  obtain ⟨-, bits, -⟩ := order.flagBits_trade sellIndex buyIndex
  unfold Contract.Trade.partiallyFillable
  rw [bits]
  cases order.partiallyFillable <;> rfl

theorem sellSource_trade : (order.trade sellIndex buyIndex).sellSource = order.sellSource := by
  obtain ⟨-, -, bits, -⟩ := order.flagBits_trade sellIndex buyIndex
  unfold Contract.Trade.sellSource
  rw [bits]
  cases order.sellSource <;> rfl

theorem buyDestination_trade :
    (order.trade sellIndex buyIndex).buyDestination = order.buyDestination := by
  obtain ⟨-, -, -, bits, -⟩ := order.flagBits_trade sellIndex buyIndex
  unfold Contract.Trade.buyDestination
  rw [bits]
  cases order.buyDestination <;> rfl

end Order

/-!
## Signatures
-/

theorem FixedBytes.ofList?_bytes {size : Nat} (value : FixedBytes size) :
    ofList? size value.bytes = some value := by
  rw [ofList?, dif_pos value.length_bytes]

theorem Order.authorization?_trade (order : Order) (sellIndex buyIndex : Nat) :
    (order.trade sellIndex buyIndex).authorization? = some order.authorization := by
  obtain ⟨-, -, -, -, bits, -⟩ := order.flagBits_trade sellIndex buyIndex
  have signature : (order.trade sellIndex buyIndex).signature = order.contractSignature := rfl
  unfold Contract.Trade.authorization? authorization
  rw [bits, signature, contractSignature]
  cases order.signingScheme with
  | eip712 => rfl
  | ethSign => rfl
  | preSign =>
      show (FixedBytes.ofList? 20 order.owner.bytes).map Authorization.preSign = _
      rw [FixedBytes.ofList?_bytes]
      rfl
  | eip1271 =>
      have sized := order.owner.length_bytes
      show (FixedBytes.ofList? 20 ((order.owner.bytes ++ order.signature).take 20)).map
        (fun owner => Authorization.eip1271 owner
          ((order.owner.bytes ++ order.signature).drop 20)) = _
      rw [List.take_left' sized, List.drop_left' sized, FixedBytes.ofList?_bytes]
      rfl

/-!
## Trades
-/

namespace Settlement

variable {solution : Solution} {contract : Address} {settlement : Settlement}

theorem Fills.terms?_eq {tokens : List Address} {order : Order} {trade : Contract.Trade}
    (fills : Fills tokens order trade) : trade.terms? tokens = some order.terms := by
  obtain ⟨sellIndex, buyIndex, rfl, sell, buy⟩ := fills
  unfold Contract.Trade.terms?
  rw [sell, buy, order.authorization?_trade, order.side_trade, order.partiallyFillable_trade,
    order.sellSource_trade, order.buyDestination_trade]
  rfl

theorem Fills.unused_flags {tokens : List Address} {order : Order} {trade : Contract.Trade}
    (fills : Fills tokens order trade) : trade.flags.value >>> 7 = 0 := by
  obtain ⟨sellIndex, buyIndex, rfl, -, -⟩ := fills
  exact (order.flagBits_trade sellIndex buyIndex).2.2.2.2.2

theorem Fills.terms_unique {tokens : List Address} {order other : Order}
    {trade : Contract.Trade} (fills : Fills tokens order trade)
    (otherFills : Fills tokens other trade) : order.terms = other.terms :=
  Option.some.inj (fills.terms?_eq.symm.trans otherFills.terms?_eq)

theorem fills_of_getElem? (settles : ofSolution solution contract = .ok settlement)
    {place : Nat} {order : Order} (ordered : solution.trades[place]? = some order) :
    ∃ trade, settlement.trades[place]? = some trade ∧ Fills settlement.tokens order trade := by
  obtain ⟨tokens, -, filled⟩ := ofSolution_ok settles
  rw [tokens]
  exact exists_trade filled ordered

/-- The trades of the call that settles tell the terms of the traded orders, with and
without the swaps that may be left out, and set no bit that has no meaning. So orders that
lead to one trade with the same tokens have the same terms. For the call to be read back the
calldata must have fewer bytes than a word can count. -/
theorem trades_tell_terms_of_orders (settles : ofSolution solution contract = .ok settlement) :
    (∀ auctionId internalized,
      (settlement.encode auctionId internalized).length < Amount.limit →
      ∃ call,
        Contract.settle.decode (withoutMetadata (settlement.encode auctionId internalized)) =
          some call ∧
        call.trades.length = solution.trades.length ∧
        ∀ (place : Nat) order, solution.trades[place]? = some order →
          ∃ trade, call.trades[place]? = some trade ∧
            trade.terms? call.tokens = some order.terms ∧ trade.flags.value >>> 7 = 0) ∧
      ∀ other otherContract otherSettlement,
        ofSolution other otherContract = .ok otherSettlement →
        otherSettlement.tokens = settlement.tokens →
        ∀ (place otherPlace : Nat) order otherOrder trade,
          solution.trades[place]? = some order →
          other.trades[otherPlace]? = some otherOrder →
          settlement.trades[place]? = some trade →
          otherSettlement.trades[otherPlace]? = some trade →
          order.terms = otherOrder.terms := by
  constructor
  · intro auctionId internalized fits
    obtain ⟨-, -, filled⟩ := ofSolution_ok settles
    refine ⟨settlement.call internalized,
      settlement.decode_withoutMetadata auctionId internalized fits,
      filled.length_eq.symm, ?_⟩
    intro place order ordered
    obtain ⟨trade, traded, fills⟩ := fills_of_getElem? settles ordered
    exact ⟨trade, traded, fills.terms?_eq, fills.unused_flags⟩
  · intro other otherContract otherSettlement otherSettles sameTokens place otherPlace order
      otherOrder trade ordered otherOrdered traded otherTraded
    obtain ⟨own, ownTraded, fills⟩ := fills_of_getElem? settles ordered
    obtain ⟨foreign, foreignTraded, otherFills⟩ := fills_of_getElem? otherSettles otherOrdered
    rw [traded] at ownTraded
    rw [otherTraded] at foreignTraded
    cases ownTraded
    cases foreignTraded
    rw [sameTokens] at otherFills
    exact fills.terms_unique otherFills

/-- An order of a contract that is traded twice, with a signature that is shorter than the
address in front of it. -/
theorem terms_of_contract_owned_order :
    let order := { Order.selling (.ofNat 20 1) (.ofNat 20 2) (.ofNat 5) with
      side := .buy
      partiallyFillable := true
      sellSource := .internal
      buyDestination := .internal
      signingScheme := .eip1271
      owner := .ofNat 20 7
      signature := [1, 2, 3] }
    let solution : Solution := {
      prices := .ofList [(.ofNat 20 1, .ofNat 5), (.ofNat 20 2, .ofNat 5)]
      trades := [order, order]
      swaps := []
      gas := none }
    ∃ settlement, ofSolution solution .zero = .ok settlement ∧
      (settlement.encode 7 true).length < Amount.limit ∧
      ∃ call trade,
        Contract.settle.decode (withoutMetadata (settlement.encode 7 true)) = some call ∧
        call.trades[1]? = some trade ∧ trade.terms? call.tokens = some order.terms ∧
        order.terms.authorization = .eip1271 (.ofNat 20 7) [1, 2, 3] := by
  intro order solution
  obtain ⟨settlement, settles, fits⟩ := exists_settlement_of_fits 7 true solution .zero
    (by decide +kernel)
  obtain ⟨call, decoded, -, told⟩ := (trades_tell_terms_of_orders settles).1 7 true fits
  obtain ⟨trade, traded, terms, -⟩ := told 1 order rfl
  exact ⟨settlement, settles, fits, call, trade, decoded, traded, terms, rfl⟩

end Settlement

end BatchAuction
