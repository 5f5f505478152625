import BatchAuction.Proofs.Contract.Call
import BatchAuction.Settlement

/-!
# Calldata is read back

The calldata of a settlement is the call that settles, followed by the identifier of the
auction in eight bytes.
-/

set_option autoImplicit false

namespace BatchAuction

/-- The number of bytes that the identifier of an auction takes. -/
def metadataLength : Nat := 8

/-- Calldata without the identifier of the auction. -/
def withoutMetadata (calldata : List UInt8) : List UInt8 :=
  calldata.take (calldata.length - metadataLength)

/-- The identifier of the auction at the end of calldata. -/
def metadata (calldata : List UInt8) : List UInt8 :=
  calldata.drop (calldata.length - metadataLength)

/-- A settlement of one trade, whose signature does not fill a word, with a hook before and
after. Of its two swaps the first may be left out. -/
def Settlement.hooked : Settlement where
  tokens := [.zero, .ofNat 20 1]
  clearingPrices := [.ofNat 1, .ofNat 2]
  trades := [{
    sellTokenIndex := .ofNat 0
    buyTokenIndex := .ofNat 1
    receiver := .zero
    sellAmount := .ofNat 10
    buyAmount := .ofNat 20
    validTo := 1700000000
    appData := .ofNat 32 7
    feeAmount := .zero
    flags := .ofNat 1
    executedAmount := .ofNat 20
    signature := [1, 2, 3] }]
  preInteractions := [.hook ⟨.zero, .zero, [4]⟩]
  intraInteractions :=
    [⟨⟨.zero, .zero, [5]⟩, true⟩, ⟨⟨.zero, .zero, []⟩, true⟩,
      ⟨⟨.zero, .zero, [6]⟩, false⟩, ⟨⟨.zero, .zero, [7]⟩, false⟩]
  postInteractions := [.hook ⟨.zero, .ofNat 1, []⟩]

namespace Settlement

theorem length_auctionBytes (auctionId : Int64) :
    (auctionBytes auctionId).length = metadataLength :=
  length_bigEndianBytes 8 _

theorem bigEndian_auctionBytes (auctionId : Int64) :
    (bigEndian (auctionBytes auctionId) : Int) = auctionId.toInt % UInt64.size := by
  have read : bigEndian (auctionBytes auctionId) = auctionId.toUInt64.toNat :=
    (bigEndian_bigEndianBytes 8 _).trans (Nat.mod_eq_of_lt auctionId.toUInt64.toNat_lt)
  rw [read]
  have signed : auctionId.toInt = auctionId.toUInt64.toBitVec.toInt := rfl
  rw [signed, BitVec.toInt_eq_toNat_bmod, Int.bmod_emod]
  exact (Int.emod_eq_of_lt (Int.natCast_nonneg _)
    (Int.ofNat_lt.mpr auctionId.toUInt64.toNat_lt)).symm

variable (settlement : Settlement) (auctionId : Int64) (internalized : Bool)

theorem length_encode :
    (settlement.encode auctionId internalized).length =
      (Contract.settle.encode (settlement.call internalized)).length + metadataLength := by
  rw [encode, List.length_append, length_auctionBytes]

theorem withoutMetadata_encode :
    withoutMetadata (settlement.encode auctionId internalized) =
      Contract.settle.encode (settlement.call internalized) := by
  rw [withoutMetadata, length_encode, Nat.add_sub_cancel]
  exact List.take_left

theorem metadata_encode :
    metadata (settlement.encode auctionId internalized) = auctionBytes auctionId := by
  rw [metadata, length_encode, Nat.add_sub_cancel]
  exact List.drop_left

theorem length_encode_call_lt
    (fits : (settlement.encode auctionId internalized).length < Amount.limit) :
    (Contract.settle.encode (settlement.call internalized)).length < Amount.limit := by
  rw [length_encode] at fits
  exact Nat.lt_of_le_of_lt (Nat.le_add_right _ _) fits

theorem decode_withoutMetadata
    (fits : (settlement.encode auctionId internalized).length < Amount.limit) :
    Contract.settle.decode (withoutMetadata (settlement.encode auctionId internalized)) =
      some (settlement.call internalized) := by
  rw [withoutMetadata_encode]
  exact (Contract.settle_lawful.carries
    (settlement.length_encode_call_lt auctionId internalized fits)).2

/-- Whether a solution is settled by few enough bytes can be computed. -/
theorem exists_settlement_of_fits (solution : Solution) (contract : Address)
    (fits : ((ofSolution solution contract).toOption.any fun settlement =>
      (settlement.encode auctionId internalized).length < Amount.limit) = true) :
    ∃ settlement, ofSolution solution contract = .ok settlement ∧
      (settlement.encode auctionId internalized).length < Amount.limit := by
  cases settles : ofSolution solution contract with
  | error fault =>
      rw [settles] at fits
      cases fits
  | ok settlement =>
      simp only [settles, Except.toOption, Option.any_some, decide_eq_true_eq] at fits
      exact ⟨settlement, rfl, fits⟩

/-- The calldata of a settlement begins with the selector, and the bytes behind it fill whole
words and read back what the settlement holds: every token, price and trade, and of each
phase the calls that are not left out, in their order. The identifier of the auction follows
in two's complement and leaves the call as it is. The calldata must have fewer bytes than a
word can count, as in any memory. -/
theorem calldata_decodes
    (fits : (settlement.encode auctionId internalized).length < Amount.limit) :
    let calldata := settlement.encode auctionId internalized
    let settling := withoutMetadata calldata
    let stays := fun interaction : Interaction => !(internalized && interaction.internalize)
    settling.take 4 = [0x13, 0xd7, 0x9a, 0x0b] ∧
      (∃ call, Contract.settle.arguments.format.decode (settling.drop 4) = some call ∧
        call.tokens = settlement.tokens ∧
        call.clearingPrices = settlement.clearingPrices ∧
        call.trades = settlement.trades ∧
        call.preInteractions = (settlement.preInteractions.filter stays).map (·.call) ∧
        call.intraInteractions = (settlement.intraInteractions.filter stays).map (·.call) ∧
        call.postInteractions = (settlement.postInteractions.filter stays).map (·.call)) ∧
      32 ∣ (settling.drop 4).length ∧
      (metadata calldata).length = 8 ∧
      (bigEndian (metadata calldata) : Int) = auctionId.toInt % UInt64.size ∧
      ∀ other, withoutMetadata (settlement.encode other internalized) = settling := by
  intro calldata settling stays
  have encoded : settling = Contract.settle.encode (settlement.call internalized) :=
    settlement.withoutMetadata_encode auctionId internalized
  have identifier : metadata calldata = auctionBytes auctionId :=
    settlement.metadata_encode auctionId internalized
  refine ⟨?_, ⟨settlement.call internalized, ?_, rfl, rfl, rfl, rfl, rfl, rfl⟩, ?_, ?_, ?_, ?_⟩
  · rw [encoded]
    exact Contract.Method.take_encode Contract.settle _
  · rw [encoded]
    exact Contract.settle_lawful.decode_arguments
      (settlement.length_encode_call_lt auctionId internalized fits)
  · rw [encoded]
    exact Contract.settle_lawful.aligned_arguments (settlement.call internalized)
  · rw [identifier]
    exact length_auctionBytes auctionId
  · rw [identifier]
    exact bigEndian_auctionBytes auctionId
  · intro other
    rw [encoded]
    exact settlement.withoutMetadata_encode other internalized

/-- The call without the first swap. -/
theorem hooked_decodes :
    (hooked.encode (-1) true).length < Amount.limit ∧
      ∃ call, Contract.settle.arguments.format.decode
          ((withoutMetadata (hooked.encode (-1) true)).drop 4) = some call ∧
        call.trades = hooked.trades ∧
        call.preInteractions = [⟨.zero, .zero, [4]⟩] ∧
        call.intraInteractions = [⟨.zero, .zero, [6]⟩, ⟨.zero, .zero, [7]⟩] ∧
        call.postInteractions = [⟨.zero, .ofNat 1, []⟩] := by
  have fits : (hooked.encode (-1) true).length < Amount.limit := by decide +kernel
  obtain ⟨-, ⟨call, decoded, -, -, trades, pre, intra, post⟩, -⟩ :=
    calldata_decodes hooked (-1) true fits
  exact ⟨fits, call, decoded, trades, pre, intra, post⟩

end Settlement

end BatchAuction
