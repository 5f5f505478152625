import BatchAuction.Contract.Call
import BatchAuction.Hex
import BatchAuction.Request
import BatchAuction.Solution

/-!
# Settlements

A settlement is a solution in the shape in which the settlement contract takes it.
Its calldata ends with the identifier of the auction it is executed for.
-/

set_option autoImplicit false

namespace BatchAuction

/-- Why a solution cannot be settled. -/
inductive SettlementError where
  | missingPrice (token : Address)
deriving DecidableEq

/-- Why a solution cannot be settled, as text. -/
def SettlementError.message : SettlementError → String
  | .missingPrice token => "missing clearing price for token " ++ token.print

/-- A call of a settlement, and whether it may be left out. -/
structure Interaction where
  call : ContractCall
  internalize : Bool
deriving DecidableEq

/-- A hook is never left out. -/
def Interaction.hook (call : ContractCall) : Interaction := ⟨call, false⟩

/-- A swap as two calls: the router is approved to draw the input, then it swaps. -/
structure RoutedSwap where
  approval : ContractCall
  exchange : ContractCall
  internalize : Bool
deriving DecidableEq

namespace RoutedSwap

/-- The calls of a swap in their order. -/
def calls (swap : RoutedSwap) : List ContractCall := [swap.approval, swap.exchange]

/-- Both calls of a swap may be left out, or none. -/
def interactions (swap : RoutedSwap) : List Interaction :=
  [⟨swap.approval, swap.internalize⟩, ⟨swap.exchange, swap.internalize⟩]

end RoutedSwap

structure Settlement where
  tokens : List Address
  clearingPrices : List Amount
  trades : List Contract.Trade
  preInteractions : List Interaction
  intraInteractions : List Interaction
  postInteractions : List Interaction
deriving DecidableEq

namespace Order

/-- The bits that say where the sell amount is drawn from. -/
def sellSourceBits : SellSource → Nat
  | .erc20 => 0
  | .external => 2
  | .internal => 3

/-- The bit that says where the buy amount is paid to. -/
def buyDestinationBit : BuyDestination → Nat
  | .erc20 => 0
  | .internal => 1

/-- The bits that say how the order is signed. -/
def signingSchemeBits : SigningScheme → Nat
  | .eip712 => 0
  | .ethSign => 1
  | .eip1271 => 2
  | .preSign => 3

/-- The choices of an order packed into a number: from the lowest bit on the side,
whether it may be filled in part, the source of the sell amount in two bits, the
destination of the buy amount and the signing scheme in two bits. -/
def flags (order : Order) : Nat :=
  (if order.side = .buy then 1 else 0) +
    (if order.partiallyFillable then 2 else 0) +
    sellSourceBits order.sellSource * 4 +
    buyDestinationBit order.buyDestination * 16 +
    signingSchemeBits order.signingScheme * 32

/-- The signature in the form that the settlement contract checks. A contract that
owns the order is named in front of its signature, and the owner alone stands for
a signature by transaction. -/
def contractSignature (order : Order) : List UInt8 :=
  match order.signingScheme with
  | .eip712 | .ethSign => order.signature
  | .eip1271 => order.owner.bytes ++ order.signature
  | .preSign => order.owner.bytes

end Order

/-- The trade of a filled order, given the indices of its tokens. -/
def Fulfillment.trade (filled : Fulfillment) (sellIndex buyIndex : Nat) : Contract.Trade where
  sellTokenIndex := .ofNat sellIndex
  buyTokenIndex := .ofNat buyIndex
  receiver := filled.order.receiver.getD .zero
  sellAmount := filled.order.sellAmount
  buyAmount := filled.order.buyAmount
  validTo := filled.order.validTo
  appData := filled.order.appData
  feeAmount := .zero
  flags := .ofNat filled.order.flags
  executedAmount := filled.executed
  signature := filled.order.contractSignature

/-- The trade of an order that is filled completely. -/
def Order.trade (order : Order) (sellIndex buyIndex : Nat) : Contract.Trade :=
  (Fulfillment.fill order).trade sellIndex buyIndex

/-- The time until which all orders are valid; without orders the end of time. -/
def commonValidity (orders : List Order) : UInt32 :=
  (orders.map (·.validTo)).foldl min (UInt32.ofNat (UInt32.size - 1))

/-- A swap as calls. What comes out goes to the settlement contract. -/
def LiquiditySwap.routed (swap : LiquiditySwap) (contract : Address) (deadline : UInt32) :
    RoutedSwap where
  approval := {
    target := swap.input.token
    value := .zero
    callData := Contract.approve.encode ⟨swap.liquidity.router, swap.input.amount⟩ }
  exchange := {
    target := swap.liquidity.router
    value := .zero
    callData := Contract.swap.encode {
      amountIn := swap.input.amount
      amountOutMin := swap.output.amount
      path := [swap.input.token, swap.output.token]
      recipient := contract
      deadline := .ofNat deadline.toNat } }
  internalize := swap.internalize

namespace Settlement

/-- The place of a token among ascending ones, looked for from one place up to another one
by halves. -/
def search (tokens : List Address) (token : Address) (low high : Nat) : Option Nat :=
  if low < high then
    let middle := low + (high - low) / 2
    match tokens[middle]? with
    | none => none
    | some found =>
        if found = token then some middle
        else if found.toNat < token.toNat then search tokens token (middle + 1) high
        else search tokens token low middle
  else none
termination_by high - low

/-- The index of a token among those that have a price. -/
def tokenIndex (prices : AddressMap Amount) (token : Address) : Except SettlementError Nat :=
  match search prices.keys token 0 prices.keys.length with
  | some index => .ok index
  | none => .error (.missingPrice token)

/-- The trades of orders that are filled completely. The first token without a
price is refused; of one order the sell token is looked up first. -/
def tradesOf (prices : AddressMap Amount) : List Order → Except SettlementError (List Contract.Trade)
  | [] => .ok []
  | order :: rest => do
      let sellIndex ← tokenIndex prices order.sellToken
      let buyIndex ← tokenIndex prices order.buyToken
      let trades ← tradesOf prices rest
      return order.trade sellIndex buyIndex :: trades

/-- The settlement of a solution. Hooks keep the order of the trades, and no swap
outlives a traded order. -/
def ofSolution (solution : Solution) (contract : Address) : Except SettlementError Settlement := do
  let trades ← tradesOf solution.prices solution.trades
  let deadline := commonValidity solution.trades
  return {
    tokens := solution.prices.keys
    clearingPrices := solution.prices.values
    trades := trades
    preInteractions :=
      solution.trades.flatMap fun order => order.preInteractions.map Interaction.hook
    intraInteractions :=
      solution.swaps.flatMap fun swap => (swap.routed contract deadline).interactions
    postInteractions :=
      solution.trades.flatMap fun order => order.postInteractions.map Interaction.hook }

/-- The calls of a phase. If `internalized`, those that may be left out are. -/
def kept (internalized : Bool) (interactions : List Interaction) : List ContractCall :=
  (interactions.filter fun interaction => !(internalized && interaction.internalize)).map (·.call)

/-- The call that settles. -/
def call (settlement : Settlement) (internalized : Bool) : Contract.SettleCall where
  tokens := settlement.tokens
  clearingPrices := settlement.clearingPrices
  trades := settlement.trades
  preInteractions := kept internalized settlement.preInteractions
  intraInteractions := kept internalized settlement.intraInteractions
  postInteractions := kept internalized settlement.postInteractions

/-- The bytes of an auction's identifier. -/
def auctionBytes (auctionId : Int64) : List UInt8 := bigEndianBytes 8 auctionId.toUInt64.toNat

/-- The bytes that settle for an auction. -/
def encode (settlement : Settlement) (auctionId : Int64) (internalized : Bool) : List UInt8 :=
  Contract.settle.encode (settlement.call internalized) ++ auctionBytes auctionId

def calldata (settlement : Settlement) (auctionId : Int64) : Calldata where
  internalized := settlement.encode auctionId true
  uninternalized := settlement.encode auctionId false

end Settlement

end BatchAuction
