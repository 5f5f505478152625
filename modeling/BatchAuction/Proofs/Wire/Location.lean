import BatchAuction.Proofs.Decimal.Natural
import BatchAuction.Proofs.Wire.Focus

/-!
# Where faults are found

The amounts, addresses and hex texts in an auction are decoded at their own places: what is
wrong with one of them is said of the path that leads to it. Their decoders look at nothing
inside of a value, so the same is said in memory and in a text.
-/

set_option autoImplicit false

namespace BatchAuction.Wire

open Json Fields

variable {α β : Type} {medium : Medium}

/-!
## Values that are looked at as a whole
-/

/-- A decoder that makes the same of a value in memory and in a text, and charges what it
refuses to the value as a whole. -/
structure Decoder.Flat (decoder : Decoder α) : Prop where
  same : ∀ (value : Json) depth first second,
    decoder first (value.documentAt depth) = decoder second value.sorted.toDocument
  here : ∀ medium document error, decoder medium document = .error error → error.path = []

theorem path_of_mismatch {expected : Expected} {document : Document} {error : Error}
    (refused : (mismatch expected document : Except Error α) = .error error) :
    error.path = [] := by
  unfold mismatch at refused
  split at refused <;> cases refused <;> rfl

theorem textAs_flat (expected : Expected) : (Decoder.textAs expected).Flat where
  same value depth first second := by cases value <;> rfl
  here medium document error refused := by
    unfold Decoder.textAs at refused
    split at refused
    · cases refused
    · exact path_of_mismatch refused

theorem Decoder.Flat.refine {decoder : Decoder α} (flat : decoder.Flat)
    (check : α → Except Cause β) : (decoder.refine check).Flat where
  same value depth first second := by
    unfold Decoder.refine
    rw [flat.same value depth first second]
  here medium document error refused := by
    unfold Decoder.refine at refused
    cases read : decoder medium document with
    | error other =>
        rw [read] at refused
        cases refused
        exact flat.here medium document _ read
    | ok found =>
        rw [read] at refused
        cases checked : check found with
        | error cause => simp only [bind, Except.bind, checked] at refused; cases refused; rfl
        | ok result => simp only [bind, Except.bind, checked] at refused; cases refused

theorem Decoder.Flat.option {decoder : Decoder α} (flat : decoder.Flat) :
    decoder.option.Flat where
  same value depth first second := by
    cases value with
    | null => rfl
    | _ => exact congrArg (Except.map some) (flat.same _ depth first second)
  here medium document error refused := by
    unfold Decoder.option at refused
    split at refused
    · cases refused
    · cases read : decoder medium document with
      | error other =>
          rw [read] at refused
          cases refused
          exact flat.here medium document _ read
      | ok found => rw [read] at refused; cases refused

theorem amount_flat : Codec.amount.decode.Flat := (textAs_flat _).refine _

theorem bytes_flat : Codec.bytes.decode.Flat := (textAs_flat _).refine _

theorem fixedBytes_flat (size : Nat) : (Codec.fixedBytes size).decode.Flat :=
  (textAs_flat _).refine _

theorem address_flat : Codec.address.decode.Flat := (textAs_flat _).refine _

theorem decodeValue_amount_eq_ok_iff {value : Json} {amount : Amount} :
    decodeValue Codec.amount.decode value = .ok amount ↔
      value = .text (Decimal.print amount.value) := by
  cases value with
  | text written =>
      have read : decodeValue Codec.amount.decode (.text written) =
        ((Decimal.parseAmount written).mapError (Cause.amount written)).mapError .here := rfl
      rw [read, Json.text.injEq, ← Decimal.parseAmount_eq_ok_iff]
      constructor
      · exact fun accepted => ok_of_mapError_ok (ok_of_mapError_ok accepted)
      · exact fun parsed => by rw [parsed]; rfl
  | _ => exact iff_of_false nofun nofun

/-- All but the texts that are written for amounts are refused as amounts. -/
theorem amount_refuses_iff {value : Json} :
    (∃ error, decodeValue Codec.amount.decode value = .error error) ↔
      ¬ ∃ amount : Amount, value = .text (Decimal.print amount.value) := by
  simp only [← decodeValue_amount_eq_ok_iff]
  cases decodeValue Codec.amount.decode value <;> simp

/-!
## Records
-/

def contractCallParts : List Part :=
  [⟨_, "target", Codec.address.decode⟩, ⟨_, "value", Codec.amount.decode⟩,
    ⟨_, "callData", Codec.bytes.decode⟩]

/-- The amounts, addresses and hex texts of an order. -/
def orderTexts : List Part :=
  [⟨_, "uid", (Codec.fixedBytes 56).decode⟩, ⟨_, "sellToken", Codec.address.decode⟩,
    ⟨_, "buyToken", Codec.address.decode⟩, ⟨_, "sellAmount", Codec.amount.decode⟩,
    ⟨_, "buyAmount", Codec.amount.decode⟩, ⟨_, "fullSellAmount", Codec.amount.decode⟩,
    ⟨_, "fullBuyAmount", Codec.amount.decode⟩, ⟨_, "receiver", Codec.address.decode.option⟩,
    ⟨_, "owner", Codec.address.decode⟩, ⟨_, "executed", Codec.amount.decode.option⟩,
    ⟨_, "appData", (Codec.fixedBytes 32).decode⟩, ⟨_, "signature", Codec.bytes.decode⟩]

def orderParts : List Part :=
  [⟨_, "uid", (Codec.fixedBytes 56).decode⟩, ⟨_, "sellToken", Codec.address.decode⟩,
    ⟨_, "buyToken", Codec.address.decode⟩, ⟨_, "sellAmount", Codec.amount.decode⟩,
    ⟨_, "buyAmount", Codec.amount.decode⟩, ⟨_, "fullSellAmount", Codec.amount.decode⟩,
    ⟨_, "fullBuyAmount", Codec.amount.decode⟩, ⟨_, "validTo", Codec.unsigned32.decode⟩,
    ⟨_, "kind", side.decode⟩, ⟨_, "receiver", Codec.address.decode.option⟩,
    ⟨_, "owner", Codec.address.decode⟩, ⟨_, "partiallyFillable", Codec.boolean.decode⟩,
    ⟨_, "executed", Codec.amount.decode.option⟩, ⟨_, "created", creationTime.decode.option⟩,
    ⟨_, "preInteractions", hook.list.decode⟩, ⟨_, "postInteractions", hook.list.decode⟩,
    ⟨_, "sellTokenSource", sellSource.decode⟩, ⟨_, "buyTokenDestination", buyDestination.decode⟩,
    ⟨_, "class", orderClass.decode⟩, ⟨_, "appData", (Codec.fixedBytes 32).decode⟩,
    ⟨_, "signingScheme", signingScheme.decode⟩, ⟨_, "signature", Codec.bytes.decode⟩,
    ⟨_, "protocolFees", feePolicy.list.decode⟩, ⟨_, "quote", quotedTerms.decode.option⟩]

/-- The amounts of a token. -/
def tokenTexts : List Part :=
  [⟨_, "referencePrice", Codec.amount.decode.option⟩,
    ⟨_, "availableBalance", Codec.amount.decode⟩]

def tokenParts : List Part :=
  [⟨_, "decimals", Codec.unsigned8.decode.option⟩, ⟨_, "symbol", Codec.text.decode.option⟩,
    ⟨_, "referencePrice", Codec.amount.decode.option⟩,
    ⟨_, "availableBalance", Codec.amount.decode⟩, ⟨_, "trusted", Codec.boolean.decode⟩]

def reserveParts : List Part := [⟨_, "balance", Codec.amount.decode⟩]

/-- The amounts and addresses of a pool. -/
def liquidityTexts : List Part :=
  [⟨_, "address", Codec.address.decode⟩, ⟨_, "router", Codec.address.decode⟩,
    ⟨_, "gasEstimate", Codec.amount.decode⟩]

def liquidityParts : List Part :=
  [⟨_, "id", Codec.text.decode⟩, ⟨_, "address", Codec.address.decode⟩,
    ⟨_, "router", Codec.address.decode⟩, ⟨_, "fee", Codec.scaled.decode⟩,
    ⟨_, "gasEstimate", Codec.amount.decode⟩, ⟨_, "kind", Codec.text.decode⟩,
    ⟨_, "tokens", (Codec.table .refused reserve).decode⟩]

def auctionParts : List Part :=
  [⟨_, "id", Codec.auctionId.option.decode⟩, ⟨_, "tokens", (Codec.table .refused token).decode⟩,
    ⟨_, "orders", order.list.decode⟩, ⟨_, "liquidity", liquidity.list.decode⟩,
    ⟨_, "effectiveGasPrice", Codec.amount.decode⟩, ⟨_, "deadline", Codec.timestamp.decode⟩,
    ⟨_, "surplusCapturingJitOrderOwners", Codec.address.list.decode⟩]

variable {part : Part}

theorem hook_focuses (among : part ∈ contractCallParts) :
    Focuses hook.decode medium [.member part.name] part.decode :=
  (consists_pure _).field.field.field.focuses (by decide) _ among

theorem order_focuses (among : part ∈ orderParts) :
    Focuses order.decode medium [.member part.name] part.decode :=
  (consists_pure _).field.field.field.field.field.field.field.field.field.field.field.field.field
    |>.field.field.field.field.field.field.field.field.field.field.field.focuses (by decide) _ among

theorem token_focuses (among : part ∈ tokenParts) :
    Focuses token.decode medium [.member part.name] part.decode :=
  (consists_pure _).field.field.field.field.field.focuses (by decide) _ among

theorem reserve_focuses (among : part ∈ reserveParts) :
    Focuses reserve.decode medium [.member part.name] part.decode :=
  (consists_pure _).field.focuses (by decide) _ among

theorem liquidity_focuses (among : part ∈ liquidityParts) :
    Focuses liquidity.decode medium [.member part.name] part.decode :=
  (consists_pure _).field.field.field.field.field.field.field.focuses (by decide) _ among

theorem auction_focuses (among : part ∈ auctionParts) :
    Focuses auction.decode medium [.member part.name] part.decode :=
  (consists_pure _).field.field.field.field.field.field.field.focuses (by decide) _ among

theorem orderTexts_subset : orderTexts ⊆ orderParts := by
  simp [orderTexts, orderParts]

theorem tokenTexts_subset : tokenTexts ⊆ tokenParts := by
  simp [tokenTexts, tokenParts]

theorem liquidityTexts_subset : liquidityTexts ⊆ liquidityParts := by
  simp [liquidityTexts, liquidityParts]

/-!
## Texts in an auction
-/

/-- A path in an auction to an amount, an address or a hex text, and what is read there. -/
inductive TextAt : List Segment → Part → Prop where
  | order {part : Part} (index : Nat) : part ∈ orderTexts →
      TextAt [.member "orders", .element index, .member part.name] part
  | preInteraction {part : Part} (index place : Nat) : part ∈ contractCallParts →
      TextAt [.member "orders", .element index, .member "preInteractions", .element place,
        .member part.name] part
  | postInteraction {part : Part} (index place : Nat) : part ∈ contractCallParts →
      TextAt [.member "orders", .element index, .member "postInteractions", .element place,
        .member part.name] part
  | token {part : Part} (key : String) : part ∈ tokenTexts →
      TextAt [.member "tokens", .member key, .member part.name] part
  | liquidity {part : Part} (index : Nat) : part ∈ liquidityTexts →
      TextAt [.member "liquidity", .element index, .member part.name] part
  | reserve {part : Part} (index : Nat) (key : String) : part ∈ reserveParts →
      TextAt [.member "liquidity", .element index, .member "tokens", .member key,
        .member part.name] part

theorem contractCallParts_flat : ∀ part ∈ contractCallParts, part.decode.Flat := by
  simp only [contractCallParts, List.forall_mem_cons]
  exact ⟨address_flat, amount_flat, bytes_flat, nofun⟩

theorem orderTexts_flat : ∀ part ∈ orderTexts, part.decode.Flat := by
  simp only [orderTexts, List.forall_mem_cons]
  exact ⟨fixedBytes_flat 56, address_flat, address_flat, amount_flat, amount_flat, amount_flat,
    amount_flat, address_flat.option, address_flat, amount_flat.option, fixedBytes_flat 32,
    bytes_flat, nofun⟩

theorem tokenTexts_flat : ∀ part ∈ tokenTexts, part.decode.Flat := by
  simp only [tokenTexts, List.forall_mem_cons]
  exact ⟨amount_flat.option, amount_flat, nofun⟩

theorem reserveParts_flat : ∀ part ∈ reserveParts, part.decode.Flat :=
  List.forall_mem_singleton.mpr amount_flat

theorem liquidityTexts_flat : ∀ part ∈ liquidityTexts, part.decode.Flat := by
  simp only [liquidityTexts, List.forall_mem_cons]
  exact ⟨address_flat, address_flat, amount_flat, nofun⟩

theorem TextAt.flat {path : List Segment} (text : TextAt path part) : part.decode.Flat := by
  cases text with
  | order _ among => exact orderTexts_flat part among
  | preInteraction _ _ among => exact contractCallParts_flat part among
  | postInteraction _ _ among => exact contractCallParts_flat part among
  | token _ among => exact tokenTexts_flat part among
  | liquidity _ among => exact liquidityTexts_flat part among
  | reserve _ _ among => exact reserveParts_flat part among

theorem orders_focus (index : Nat) :
    Focuses auction.decode medium [.member "orders", .element index] order.decode := by
  have orders : ⟨_, "orders", order.list.decode⟩ ∈ auctionParts := by simp [auctionParts]
  exact (auction_focuses orders).trans (list_focuses order.decode index)

theorem hooks_focus {name : String} (known : ⟨_, name, hook.list.decode⟩ ∈ orderParts)
    (index place : Nat) :
    Focuses auction.decode medium
      [.member "orders", .element index, .member name, .element place] hook.decode :=
  ((orders_focus index).trans (order_focuses known)).trans (list_focuses hook.decode place)

theorem tokens_focus (key : String) :
    Focuses auction.decode medium [.member "tokens", .member key] token.decode := by
  have tokens : ⟨_, "tokens", (Codec.table .refused token).decode⟩ ∈ auctionParts := by
    simp [auctionParts]
  exact (auction_focuses tokens).trans (table_focuses token key)

theorem pools_focus (index : Nat) :
    Focuses auction.decode medium [.member "liquidity", .element index] liquidity.decode := by
  have pools : ⟨_, "liquidity", liquidity.list.decode⟩ ∈ auctionParts := by simp [auctionParts]
  exact (auction_focuses pools).trans (list_focuses liquidity.decode index)

theorem reserves_focus (index : Nat) (key : String) :
    Focuses auction.decode medium
      [.member "liquidity", .element index, .member "tokens", .member key] reserve.decode := by
  have reserves : ⟨_, "tokens", (Codec.table .refused reserve).decode⟩ ∈ liquidityParts := by
    simp [liquidityParts]
  exact ((pools_focus index).trans (liquidity_focuses reserves)).trans (table_focuses reserve key)

/-- What becomes of an auction when such a text is exchanged turns on the text. -/
theorem TextAt.focuses {path : List Segment} (text : TextAt path part) :
    Focuses auction.decode medium path part.decode := by
  cases text with
  | order index among => exact (orders_focus index).trans (order_focuses (orderTexts_subset among))
  | preInteraction index place among =>
      exact (hooks_focus (by simp [orderParts]) index place).trans (hook_focuses among)
  | postInteraction index place among =>
      exact (hooks_focus (by simp [orderParts]) index place).trans (hook_focuses among)
  | token key among => exact (tokens_focus key).trans (token_focuses (tokenTexts_subset among))
  | liquidity index among =>
      exact (pools_focus index).trans (liquidity_focuses (liquidityTexts_subset among))
  | reserve index key among => exact (reserves_focus index key).trans (reserve_focuses among)

end BatchAuction.Wire
