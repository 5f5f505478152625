import BatchAuction.Contract.Call
import BatchAuction.Proofs.Abi.Format

/-!
# Calls are read back

A method is lawful if its arguments are. All three methods are, so each of their calls is
told by its bytes alone.
-/

set_option autoImplicit false

namespace BatchAuction.Contract

open Abi

variable {α : Type}

/-- A method whose arguments read back what they write. -/
structure Method.Lawful (method : Method α) : Prop where
  arguments : method.arguments.Lawful fun call => call
  size_pos : 0 < method.arguments.size

/-- Bytes are a call and read back as it. -/
def Method.Carries (method : Method α) (bytes : List UInt8) (call : α) : Prop :=
  bytes = method.encode call ∧ method.decode bytes = some call

namespace Method

variable {method : Method α}

theorem length_encode (method : Method α) (call : α) :
    (method.encode call).length =
      method.selector.length + (method.arguments.format.encode call).length := by
  rw [encode, List.length_append]

theorem take_encode (method : Method α) (call : α) :
    (method.encode call).take method.selector.length = method.selector :=
  List.take_left

theorem drop_encode (method : Method α) (call : α) :
    (method.encode call).drop method.selector.length = method.arguments.format.encode call :=
  List.drop_left

theorem decode_encode_of_selector_ne {β : Type} {other : Method β}
    (lengths : method.selector.length = other.selector.length)
    (differ : other.selector ≠ method.selector) (call : β) :
    method.decode (other.encode call) = none := by
  rw [decode, lengths, take_encode, if_neg differ]

theorem Lawful.format (lawful : method.Lawful) : method.arguments.format.Lawful :=
  lawful.arguments.format lawful.size_pos

theorem Lawful.length_encode_eq (lawful : method.Lawful) (call : α) :
    (method.encode call).length = method.selector.length +
      (method.arguments.size + (tails (method.arguments.parts call)).length) := by
  have arguments : method.arguments.format.encode call =
      assemble (method.arguments.parts call) := rfl
  rw [length_encode, arguments, length_assemble, lawful.arguments.headsSize_parts]

theorem Lawful.decode_arguments (lawful : method.Lawful) {call : α}
    (fits : (method.encode call).length < Amount.limit) :
    method.arguments.format.decode ((method.encode call).drop method.selector.length) =
      some call := by
  have own : (method.arguments.format.encode call).length < Amount.limit := by
    rw [length_encode] at fits
    omega
  have read := lawful.format.decode_encode call [] own
  rw [List.append_nil] at read
  rw [drop_encode]
  exact read

theorem Lawful.carries (lawful : method.Lawful) {call : α}
    (fits : (method.encode call).length < Amount.limit) :
    method.Carries (method.encode call) call := by
  refine ⟨rfl, ?_⟩
  rw [decode, if_pos (take_encode method call)]
  exact lawful.decode_arguments fits

theorem Lawful.aligned_arguments (lawful : method.Lawful) (call : α) :
    wordSize ∣ ((method.encode call).drop method.selector.length).length := by
  rw [drop_encode]
  exact lawful.format.aligned call

end Method

theorem trade_lawful : trade.Lawful := by
  have members := (Members.Lawful.const (σ := Trade) Trade.mk)
    |>.seq (.member Format.amount_lawful (·.sellTokenIndex))
    |>.seq (.member Format.amount_lawful (·.buyTokenIndex))
    |>.seq (.member Format.address_lawful (·.receiver))
    |>.seq (.member Format.amount_lawful (·.sellAmount))
    |>.seq (.member Format.amount_lawful (·.buyAmount))
    |>.seq (.member Format.unsigned32_lawful (·.validTo))
    |>.seq (.member Format.digest_lawful (·.appData))
    |>.seq (.member Format.amount_lawful (·.feeAmount))
    |>.seq (.member Format.amount_lawful (·.flags))
    |>.seq (.member Format.amount_lawful (·.executedAmount))
    |>.seq (.member Format.bytes_lawful (·.signature))
  exact members.format (by decide)

theorem interaction_lawful : interaction.Lawful := by
  have members := (Members.Lawful.const (σ := ContractCall) ContractCall.mk)
    |>.seq (.member Format.address_lawful (·.target))
    |>.seq (.member Format.amount_lawful (·.value))
    |>.seq (.member Format.bytes_lawful (·.callData))
  exact members.format (by decide)

theorem phases_lawful : phases.Lawful := by
  have interactions := Format.list_lawful interaction_lawful
  have members := (Members.Lawful.const (σ := Phases) Phases.mk)
    |>.seq (.member interactions (·.pre))
    |>.seq (.member interactions (·.intra))
    |>.seq (.member interactions (·.post))
  exact members.format (by decide)

theorem settle_lawful : settle.Lawful := by
  have members := (Members.Lawful.const (σ := SettleCall)
      fun tokens clearingPrices trades phases =>
        SettleCall.mk tokens clearingPrices trades phases.pre phases.intra phases.post)
    |>.seq (.member (Format.list_lawful Format.address_lawful) (·.tokens))
    |>.seq (.member (Format.list_lawful Format.amount_lawful) (·.clearingPrices))
    |>.seq (.member (Format.list_lawful trade_lawful) (·.trades))
    |>.seq (.member phases_lawful fun call =>
      ⟨call.preInteractions, call.intraInteractions, call.postInteractions⟩)
  exact ⟨members, by decide⟩

theorem approve_lawful : approve.Lawful := by
  have members := (Members.Lawful.const (σ := ApproveCall) ApproveCall.mk)
    |>.seq (.member Format.address_lawful (·.spender))
    |>.seq (.member Format.amount_lawful (·.amount))
  exact ⟨members, by decide⟩

theorem swap_lawful : swap.Lawful := by
  have members := (Members.Lawful.const (σ := SwapCall) SwapCall.mk)
    |>.seq (.member Format.amount_lawful (·.amountIn))
    |>.seq (.member Format.amount_lawful (·.amountOutMin))
    |>.seq (.member (Format.list_lawful Format.address_lawful) (·.path))
    |>.seq (.member Format.address_lawful (·.recipient))
    |>.seq (.member Format.amount_lawful (·.deadline))
  exact ⟨members, by decide⟩

theorem length_encode_approve (call : ApproveCall) : (approve.encode call).length = 68 := by
  have noTails : tails (approve.arguments.parts call) = [] := rfl
  rw [approve_lawful.length_encode_eq, noTails]
  rfl

theorem approve_carries (call : ApproveCall) : approve.Carries (approve.encode call) call := by
  refine approve_lawful.carries ?_
  rw [length_encode_approve]
  decide

theorem decode_swap_approve (call : ApproveCall) : swap.decode (approve.encode call) = none :=
  Method.decode_encode_of_selector_ne (by rfl) (by decide) call

theorem length_encode_swap {call : SwapCall} (path : call.path.length = 2) :
    (swap.encode call).length = 260 := by
  have parts : swap.arguments.parts call = [
      Format.amount.part call.amountIn,
      Format.amount.part call.amountOutMin,
      Format.address.list.part call.path,
      Format.address.part call.recipient,
      Format.amount.part call.deadline] := rfl
  have inTail : tails (swap.arguments.parts call) = Format.address.list.encode call.path := by
    rw [parts]
    simp [tails, Part.tail, Format.part, Format.amount, Format.address, Format.ofWord, Format.list]
  rw [swap_lawful.length_encode_eq, inTail, Format.address_lawful.length_encode_list rfl, path]
  rfl

theorem swap_carries {call : SwapCall} (path : call.path.length = 2) :
    swap.Carries (swap.encode call) call := by
  refine swap_lawful.carries ?_
  rw [length_encode_swap path]
  decide

theorem length_encode_interaction (call : ContractCall) :
    (interaction.encode call).length =
      3 * wordSize + (Format.bytes.encode call.callData).length := by
  have parts : interaction.encode call = assemble [
      Format.address.part call.target,
      Format.amount.part call.value,
      Format.bytes.part call.callData] := rfl
  rw [parts, length_assemble]
  simp [headsSize, tails, Part.headSize, Part.tail, Format.part, Format.amount, Format.address,
    Format.ofWord, Format.bytes, wordSize]

theorem length_encode_phases (all : Phases) :
    (phases.encode all).length = 3 * wordSize + ((interaction.list.encode all.pre).length +
      ((interaction.list.encode all.intra).length +
        (interaction.list.encode all.post).length)) := by
  have parts : phases.encode all = assemble [
      interaction.list.part all.pre,
      interaction.list.part all.intra,
      interaction.list.part all.post] := rfl
  rw [parts, length_assemble]
  simp only [headsSize, tails, List.flatMap_cons, List.flatMap_nil, List.append_nil,
    List.length_append, Format.tail_list_part, Format.headSize_list_part]
  omega

theorem tails_settle (call : SettleCall) :
    tails (settle.arguments.parts call) =
      Format.address.list.encode call.tokens ++ (Format.amount.list.encode call.clearingPrices ++
        (trade.list.encode call.trades ++ phases.encode
          ⟨call.preInteractions, call.intraInteractions, call.postInteractions⟩)) := by
  have parts : settle.arguments.parts call = [
      Format.address.list.part call.tokens,
      Format.amount.list.part call.clearingPrices,
      trade.list.part call.trades,
      phases.part ⟨call.preInteractions, call.intraInteractions, call.postInteractions⟩] := rfl
  rw [parts]
  simp only [tails, List.flatMap_cons, List.flatMap_nil, List.append_nil, Format.tail_list_part]
  rfl

/-- With other intra interactions a call is longer by as much as they are. -/
theorem length_encode_settle (call : SettleCall) (intra : List ContractCall) :
    (settle.encode { call with intraInteractions := intra }).length +
        (interaction.list.encode call.intraInteractions).length =
      (settle.encode call).length + (interaction.list.encode intra).length := by
  simp only [settle_lawful.length_encode_eq, tails_settle, List.length_append,
    length_encode_phases]
  omega

end BatchAuction.Contract
