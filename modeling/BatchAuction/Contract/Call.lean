import BatchAuction.Abi.Format
import BatchAuction.Order

/-!
# Calls to contracts

The three calls that a settlement is made of: settling a batch, approving a
spender and swapping through a router. A call is a selector of four bytes followed
by the sequence of its arguments.
-/

set_option autoImplicit false

namespace BatchAuction.Contract

open Abi

/-- A kind of call: its selector and the format of its arguments. -/
structure Method (α : Type) where
  selector : List UInt8
  arguments : Members α α

namespace Method

variable {α : Type}

def encode (method : Method α) (call : α) : List UInt8 :=
  method.selector ++ method.arguments.format.encode call

/-- Reads a call; what follows it is ignored. -/
def decode (method : Method α) (bytes : List UInt8) : Option α :=
  if bytes.take method.selector.length = method.selector then
    method.arguments.format.decode (bytes.drop method.selector.length)
  else none

end Method

/-- A trade as the settlement contract takes it: tokens by their index, and the
choices of the order packed into flags. -/
structure Trade where
  sellTokenIndex : Amount
  buyTokenIndex : Amount
  receiver : Address
  sellAmount : Amount
  buyAmount : Amount
  validTo : UInt32
  appData : Digest
  feeAmount : Amount
  flags : Amount
  executedAmount : Amount
  signature : List UInt8
deriving DecidableEq

/-- The call that settles a batch. The interactions run before, between and after
the transfers from and to the traders. -/
structure SettleCall where
  tokens : List Address
  clearingPrices : List Amount
  trades : List Trade
  preInteractions : List ContractCall
  intraInteractions : List ContractCall
  postInteractions : List ContractCall
deriving DecidableEq

/-- The call that lets a spender draw tokens. -/
structure ApproveCall where
  spender : Address
  amount : Amount
deriving DecidableEq

/-- The call that swaps tokens along a path. -/
structure SwapCall where
  amountIn : Amount
  amountOutMin : Amount
  path : List Address
  recipient : Address
  deadline : Amount
deriving DecidableEq

def trade : Format Trade := Members.format <|
  pure Trade.mk
    <*> .member .amount (·.sellTokenIndex)
    <*> .member .amount (·.buyTokenIndex)
    <*> .member .address (·.receiver)
    <*> .member .amount (·.sellAmount)
    <*> .member .amount (·.buyAmount)
    <*> .member .unsigned32 (·.validTo)
    <*> .member .digest (·.appData)
    <*> .member .amount (·.feeAmount)
    <*> .member .amount (·.flags)
    <*> .member .amount (·.executedAmount)
    <*> .member .bytes (·.signature)

def interaction : Format ContractCall := Members.format <|
  pure ContractCall.mk
    <*> .member .address (·.target)
    <*> .member .amount (·.value)
    <*> .member .bytes (·.callData)

/-- The interactions of a settling call, which form a sequence of their own. -/
structure Phases where
  pre : List ContractCall
  intra : List ContractCall
  post : List ContractCall
deriving DecidableEq

/-- The format of the interactions of a settling call. -/
def phases : Format Phases := Members.format <|
  pure Phases.mk
    <*> .member interaction.list (·.pre)
    <*> .member interaction.list (·.intra)
    <*> .member interaction.list (·.post)

def settle : Method SettleCall where
  selector := [0x13, 0xd7, 0x9a, 0x0b]
  arguments :=
    pure (fun tokens clearingPrices trades phases =>
        SettleCall.mk tokens clearingPrices trades phases.pre phases.intra phases.post)
      <*> .member Format.address.list (·.tokens)
      <*> .member Format.amount.list (·.clearingPrices)
      <*> .member trade.list (·.trades)
      <*> .member phases fun call =>
        ⟨call.preInteractions, call.intraInteractions, call.postInteractions⟩

def approve : Method ApproveCall where
  selector := [0x09, 0x5e, 0xa7, 0xb3]
  arguments :=
    pure ApproveCall.mk <*> .member .address (·.spender) <*> .member .amount (·.amount)

def swap : Method SwapCall where
  selector := [0x38, 0xed, 0x17, 0x39]
  arguments :=
    pure SwapCall.mk
      <*> .member .amount (·.amountIn)
      <*> .member .amount (·.amountOutMin)
      <*> .member Format.address.list (·.path)
      <*> .member .address (·.recipient)
      <*> .member .amount (·.deadline)

end BatchAuction.Contract
