import BatchAuction.Proofs.Settlement.Announcement

/-!
# Swaps that are left out

A settlement is encoded with all of its swaps and without those that may be left out. The
two calls differ in nothing else, and every swap that is left out saves the same number of
bytes.
-/

set_option autoImplicit false

namespace BatchAuction

open Abi Contract

/-- The bytes that the two calls of a swap take in the calldata of a settlement. -/
def swapLength : Nat := 704

theorem length_encode_calls (swap : LiquiditySwap) (contract : Address) (deadline : UInt32) :
    (interaction.list.encode (swap.routed contract deadline).calls).length =
      wordSize + swapLength := by
  have approval : (swap.routed contract deadline).approval.callData.length = 68 :=
    length_encode_approve _
  have exchange : (swap.routed contract deadline).exchange.callData.length = 260 :=
    length_encode_swap rfl
  have both := Format.length_encode_list_append interaction
    [(swap.routed contract deadline).approval] [(swap.routed contract deadline).exchange]
  have placed : interaction.dynamic = true := rfl
  rw [Format.length_encode_list_singleton placed, Format.length_encode_list_singleton placed,
    length_encode_interaction, length_encode_interaction, Format.length_encode_bytes,
    Format.length_encode_bytes, approval, exchange] at both
  exact Nat.add_right_cancel both

/-- The calls of some swaps, in their order. -/
def LiquiditySwap.allCalls (contract : Address) (deadline : UInt32)
    (swaps : List LiquiditySwap) : List ContractCall :=
  swaps.flatMap fun swap => (swap.routed contract deadline).calls

theorem length_encode_allCalls (contract : Address) (deadline : UInt32)
    (swaps : List LiquiditySwap) :
    (interaction.list.encode (LiquiditySwap.allCalls contract deadline swaps)).length =
      wordSize + swapLength * swaps.length := by
  induction swaps with
  | nil => exact Format.length_encode_list_nil interaction
  | cons swap rest ih =>
      have both := Format.length_encode_list_append interaction
        (swap.routed contract deadline).calls (LiquiditySwap.allCalls contract deadline rest)
      rw [length_encode_calls, ih] at both
      rw [LiquiditySwap.allCalls, List.flatMap_cons, List.length_cons, Nat.mul_succ]
      unfold LiquiditySwap.allCalls at both
      omega

namespace Settlement

variable {solution : Solution} {contract : Address} {settlement : Settlement}

theorem intraInteractions_call (settles : ofSolution solution contract = .ok settlement)
    (internalized : Bool) :
    (settlement.call internalized).intraInteractions =
      LiquiditySwap.allCalls contract (commonValidity solution.trades)
        (solution.swaps.filter fun swap => !(internalized && swap.internalize)) := by
  obtain ⟨-, swaps, -⟩ := phases_call settles internalized
  rw [swaps, routedSwaps, List.filter_map, List.flatMap_map]
  rfl

theorem intraInteractions_call_all (settles : ofSolution solution contract = .ok settlement) :
    (settlement.call false).intraInteractions =
      LiquiditySwap.allCalls contract (commonValidity solution.trades) solution.swaps := by
  rw [intraInteractions_call settles]
  simp

/-- The two calls differ in nothing but the swaps. -/
theorem call_true_eq (settles : ofSolution solution contract = .ok settlement) :
    settlement.call true = { settlement.call false with
      intraInteractions := LiquiditySwap.allCalls contract (commonValidity solution.trades)
        (solution.swaps.filter (!·.internalize)) } := by
  obtain ⟨pre, -, post⟩ := phases_call settles true
  obtain ⟨allPre, -, allPost⟩ := phases_call settles false
  have swaps := intraInteractions_call settles true
  simp only [Bool.true_and] at swaps
  rw [Contract.SettleCall.mk.injEq]
  exact ⟨rfl, rfl, rfl, pre.trans allPre.symm, swaps, post.trans allPost.symm⟩

theorem length_uninternalized (settles : ofSolution solution contract = .ok settlement)
    (auctionId : Int64) :
    (settlement.calldata auctionId).uninternalized.length =
      (settlement.calldata auctionId).internalized.length +
        swapLength * solution.swaps.countP (·.internalize) := by
  have counted : solution.swaps.length = solution.swaps.countP (·.internalize) +
      (solution.swaps.filter (!·.internalize)).length := by
    rw [List.countP_eq_length_filter]
    exact List.length_eq_length_filter_add _
  have lengths := length_encode_settle (settlement.call false)
    (LiquiditySwap.allCalls contract (commonValidity solution.trades)
      (solution.swaps.filter (!·.internalize)))
  rw [← call_true_eq settles, intraInteractions_call_all settles, length_encode_allCalls,
    length_encode_allCalls, counted, Nat.mul_add] at lengths
  rw [calldata, length_encode, length_encode]
  omega

theorem internalized_eq_iff (settles : ofSolution solution contract = .ok settlement)
    (auctionId : Int64) :
    (settlement.calldata auctionId).internalized = (settlement.calldata auctionId).uninternalized ↔
      ∀ swap ∈ solution.swaps, swap.internalize = false := by
  constructor
  · intro same
    have lengths := length_uninternalized settles auctionId
    rw [same] at lengths
    have none : solution.swaps.countP (·.internalize) = 0 := by
      unfold swapLength at lengths
      omega
    intro swap member
    exact eq_false_of_ne_true (List.countP_eq_zero.mp none swap member)
  · intro unflagged
    have kept : solution.swaps.filter (!·.internalize) = solution.swaps := by
      refine List.filter_eq_self.mpr ?_
      intro swap member
      rw [unflagged swap member]
      rfl
    have same : settlement.call true = settlement.call false := by
      rw [call_true_eq settles, kept, ← intraInteractions_call_all settles]
    rw [calldata, encode, encode, same]

/-- The calldata of a settlement without the swaps that may be left out is that with all of
them, but for the calls of those swaps. Each swap is an approval and an exchange, one after
the other, and the swaps that stay keep their order. Two calls are saved for every swap that
is left out. For the calls to be read back the calldata must have fewer bytes than a word
can count. -/
theorem internalized_calldata_omits_flagged_swaps
    (settles : ofSolution solution contract = .ok settlement) (auctionId : Int64) :
    let calldata := settlement.calldata auctionId
    let deadline := commonValidity solution.trades
    (calldata.uninternalized.length < Amount.limit →
      ∃ whole, settle.decode (withoutMetadata calldata.uninternalized) = some whole ∧
        whole.intraInteractions = LiquiditySwap.allCalls contract deadline solution.swaps ∧
        settle.decode (withoutMetadata calldata.internalized) =
          some { whole with
            intraInteractions := LiquiditySwap.allCalls contract deadline
              (solution.swaps.filter (!·.internalize)) }) ∧
      (∀ (used : LiquiditySwap) announced, used.announced = .liquidity announced →
        ∃ approval exchange,
          LiquiditySwap.allCalls contract deadline [used] = [approval, exchange] ∧
          SwapAgrees used.liquidity contract deadline announced approval exchange) ∧
      calldata.uninternalized.length =
        calldata.internalized.length + swapLength * solution.swaps.countP (·.internalize) ∧
      (calldata.internalized = calldata.uninternalized ↔
        ∀ swap ∈ solution.swaps, swap.internalize = false) ∧
      ((∃ swap ∈ solution.swaps, swap.internalize = true) →
        calldata.internalized.length < calldata.uninternalized.length) := by
  intro calldata deadline
  have lengths : calldata.uninternalized.length =
      calldata.internalized.length + swapLength * solution.swaps.countP (·.internalize) :=
    length_uninternalized settles auctionId
  refine ⟨?_, ?_, lengths, internalized_eq_iff settles auctionId, ?_⟩
  · intro fits
    have shorter : calldata.internalized.length < Amount.limit := by omega
    refine ⟨settlement.call false, settlement.decode_withoutMetadata auctionId false fits,
      intraInteractions_call_all settles, ?_⟩
    rw [← call_true_eq settles]
    exact settlement.decode_withoutMetadata auctionId true shorter
  · intro used announced told
    exact ⟨_, _, rfl, used.routed_agrees contract deadline told⟩
  · rintro ⟨swap, member, flagged⟩
    have some : 0 < solution.swaps.countP (·.internalize) :=
      List.countP_pos_iff.mpr ⟨swap, member, flagged⟩
    unfold swapLength at lengths
    omega

/-- One swap may be left out, the one after it may not. -/
theorem unflagged_swap_stays :
    let pool := Solution.direct (.ofNat 20 1) (.ofNat 20 2) (.ofNat 20 3) (.ofNat 5)
    let solution : Solution := { pool with
      swaps := pool.swaps ++ pool.swaps.map fun swap => { swap with internalize := false } }
    ∃ settlement, ofSolution solution .zero = .ok settlement ∧
      (settlement.calldata 7).uninternalized.length < Amount.limit ∧
      (settlement.calldata 7).uninternalized.length =
        (settlement.calldata 7).internalized.length + swapLength ∧
      ∃ call, settle.decode (withoutMetadata (settlement.calldata 7).internalized) = some call ∧
        call.intraInteractions.length = 2 := by
  intro pool solution
  obtain ⟨settlement, settles, fits⟩ := exists_settlement_of_fits 7 false solution .zero
    (by decide +kernel)
  obtain ⟨decodes, -, lengths, -, -⟩ := internalized_calldata_omits_flagged_swaps settles 7
  obtain ⟨whole, -, -, decoded⟩ := decodes fits
  exact ⟨settlement, settles, fits, lengths, _, decoded, rfl⟩

end Settlement

end BatchAuction
