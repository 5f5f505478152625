import BatchAuction.Engine.Basic
import BatchAuction.Proofs.PostedAuction
import BatchAuction.Proofs.Wire.Agreement
import BatchAuction.Proofs.Wire.Location
import BatchAuction.Proofs.Wire.Nesting
import BatchAuction.Proofs.Wire.RoundTrip

/-!
# Refused auctions

An auction in which one text is replaced by something that cannot be read there is refused
with the path of the text, in memory and as the body of a request. The engine answers such a
body with the path and the reason, and stays as it is. A body is read from its beginning, so
something that nests too deep for a text hides what is wrong behind it.
-/

set_option autoImplicit false

namespace BatchAuction

open Json Wire

variable {whole new : Json} {path : List Segment} {part : Part}

private theorem description_eq (path : List Segment) (cause : Cause) :
    RefusalKind.invalidRequest.description ++ ": " ++ Error.render ⟨path, cause⟩ =
      "Invalid request: invalid value at " ++ renderPath path ++ ": " ++ cause.message := by
  have opening : "Invalid request" ++ ": " ++ "invalid value at " =
    "Invalid request: invalid value at " := by decide +kernel
  have moved : ∀ a b c d e f : String,
      a ++ b ++ (c ++ d ++ e ++ f) = a ++ b ++ c ++ d ++ e ++ f := by
    intros
    simp only [String.append_assoc]
  exact (moved ..).trans (congrArg (· ++ renderPath path ++ ": " ++ cause.message) opening)

/-- A body that is no auction is answered with where it is wrong, and the engine stays as it
is. -/
theorem Engine.answer_solve_of_refused {engine : Engine} {now : Clock.Timestamp}
    {request : Http.Request} {path : List Segment} {cause : Cause}
    (solves : request.path = "/solve") (posted : request.method = "POST")
    (refused : decodeText auction.decode request.body = .error ⟨path, cause⟩) :
    ∃ description,
      engine.answer now request =
        (⟨400, .json (refusal.encode ⟨"InvalidRequest", description⟩)⟩, engine) ∧
      ∃ before after, description = before ++ renderPath path ++ after := by
  have route : Engine.Route.ofPath? request.path = some .solve := by rw [solves]; rfl
  refine ⟨RefusalKind.invalidRequest.description ++ ": " ++ Error.render ⟨path, cause⟩, ?_,
    "Invalid request: invalid value at ", ": " ++ cause.message, ?_⟩
  · rw [engine.answer_of_route now route posted]
    unfold Engine.answerOn Engine.solve
    dsimp only
    rw [refused]
    rfl
  · rw [description_eq]
    exact String.append_assoc

namespace Wire

theorem TextAt.refused_value {error : Error} (text : TextAt path part)
    (distinct : whole.DistinctKeys) (accepted : ∃ found, decodeValue auction.decode whole = .ok found)
    (there : ∃ old, partAt? path whole = some old)
    (refused : decodeValue part.decode new = .error error) :
    decodeValue auction.decode (replaceAt new path whole) = .error ⟨path, error.cause⟩ := by
  obtain ⟨found, accepted⟩ := accepted
  obtain ⟨old, there⟩ := there
  have replaced : Replaced old new path whole _ := replaced_replaceAt distinct there
  have outcome := (text.focuses replaced.exchanged_sorted accepted).refuses error refused
  have root := text.flat.here _ _ _ refused
  rw [Error.beneath, root, List.append_nil] at outcome
  exact outcome

theorem TextAt.refused_text {error : Error} {bytes changed : List UInt8} (text : TextAt path part)
    (distinct : whole.DistinctKeys) (there : ∃ old, partAt? path whole = some old)
    (refused : decodeValue part.decode new = .error error)
    (written : Renders bytes whole) (rewritten : Renders changed (replaceAt new path whole))
    (accepted : ∃ found, decodeText auction.decode bytes = .ok found) :
    decodeText auction.decode changed = .error ⟨path, error.cause⟩ := by
  obtain ⟨found, accepted⟩ := accepted
  obtain ⟨old, there⟩ := there
  rw [decodeText_of_read _ written] at accepted
  rw [decodeText_of_read _ rewritten]
  have replaced : Replaced old new path whole _ := replaced_replaceAt distinct there
  obtain ⟨inner, exchanged⟩ := replaced.exchanged_documentAt 0
  have located : part.decode .text (new.documentAt inner) = .error error := by
    rw [text.flat.same new inner .text .value]
    exact refused
  have outcome := (text.focuses exchanged accepted).refuses error located
  have root := text.flat.here _ _ _ refused
  rw [Error.beneath, root, List.append_nil] at outcome
  exact outcome

/-- The text of an accepted auction is accepted, unless it nests too deep for the reader. -/
theorem exists_decodeText_of_spells {bytes : List UInt8} (spelled : Spells bytes whole)
    (distinct : whole.DistinctKeys)
    (accepted : ∃ found, decodeValue auction.decode whole = .ok found) :
    ∃ found, decodeText auction.decode bytes = .ok found := by
  obtain ⟨found, accepted⟩ := accepted
  have alike : Medium.text.Alike .value := iff_of_false nofun nofun
  have same := auction_stable alike distinct trivial distinct.reordered_sorted
  rw [decodeText_of_spells _ spelled]
  rw [decodeValue_eq_ok_iff, ← same] at accepted
  exact ⟨found, Decoder.outcome?_eq_some_iff.mp accepted⟩

/-!
## An auction of two orders
-/

def sale : PostedOrder := .selling (.ofNat 20 1) (.ofNat 20 2) .zero

def sales : PostedAuction := { PostedAuction.idle none .last with orders := [sale, sale] }

private theorem written_restores : auction.Restores 6 restoredAuction :=
  have restores : auction.Restores (0 + 6) restoredAuction := auction_restores
  restores

theorem sales_fits : (auction.encode sales).Fits 6 := written_restores.fits sales

theorem reals_sales : (auction.encode sales).reals = [] := rfl

theorem sales_renders :
    Renders (Text.Utf8.ofString (auction.encode sales).print) (auction.encode sales) :=
  sales_fits.renders_print (readsBack_of_reals_eq_nil reals_sales)

theorem exists_decodeText_sales :
    ∃ found, decodeText auction.decode (Text.Utf8.ofString (auction.encode sales).print) =
      .ok found :=
  ⟨_, written_restores.decodeText_print (by decide) (readsBack_of_reals_eq_nil reals_sales)⟩

theorem exists_decodeValue_sales :
    ∃ found, decodeValue auction.decode (auction.encode sales) = .ok found := by
  have distinct := sales_fits.distinctKeys
  have same := auction_stable (.refl .value) distinct trivial distinct.reordered_sorted
  exact ⟨_, decodeValue_eq_ok_iff.mpr (same ▸ written_restores.reads .value sales)⟩

def secondSellAmount : List Segment :=
  [.member "orders", .element 1, .member "sellAmount"]

theorem secondSellAmount_textAt :
    TextAt secondSellAmount ⟨_, "sellAmount", Codec.amount.decode⟩ := by
  have among : ⟨_, "sellAmount", Codec.amount.decode⟩ ∈ orderTexts := by simp [orderTexts]
  exact .order 1 among

theorem renders_null_of_replaced {old other : Json} {depth : Nat}
    (replaced : Replaced old .null path whole other) (fits : whole.Fits depth)
    (plain : whole.reals = []) : Renders (Text.Utf8.ofString other.print) other := by
  have nullFits : Json.null.Fits 0 := .null
  exact (replaced.fits fits nullFits).renders_print
    (readsBack_of_reals_eq_nil (replaced.reals_eq_nil plain rfl))

/-!
## A fault in front of a fault
-/

def feesOfFirst : List Segment := [.member "orders", .element 0, .member "protocolFees"]

theorem feesOfFirst_focus {medium : Medium} :
    Focuses auction.decode medium feesOfFirst feePolicy.list.decode := by
  have among : ⟨_, "protocolFees", feePolicy.list.decode⟩ ∈ orderParts := by simp [orderParts]
  exact (orders_focus 0).trans (order_focuses among)

def salesWith (fees : Json) : Json := replaceAt fees feesOfFirst (auction.encode sales)

theorem salesWith_replaced (fees : Json) :
    ∃ old, Replaced old fees feesOfFirst (auction.encode sales) (salesWith fees) := by
  obtain ⟨old, there⟩ : ∃ old, partAt? feesOfFirst (auction.encode sales) = some old := ⟨_, rfl⟩
  exact ⟨old, replaced_replaceAt sales_fits.distinctKeys there⟩

theorem exists_decodeValue_salesWith {fees : Json}
    (accepted : ∃ found, decodeValue feePolicy.list.decode fees = .ok found) :
    ∃ found, decodeValue auction.decode (salesWith fees) = .ok found := by
  obtain ⟨found, accepted⟩ := accepted
  obtain ⟨old, replaced⟩ := salesWith_replaced fees
  obtain ⟨auction, before⟩ := exists_decodeValue_sales
  exact (feesOfFirst_focus replaced.exchanged_sorted before).accepts found accepted

theorem sale_fits : (order.encode sale).Fits 4 :=
  have lossless : order.Lossless (0 + 4) := order_lossless
  lossless.fits sale

def saleWith (fees : Json) : Json :=
  replaceAt fees [.member "protocolFees"] (order.encode sale)

def spoiledSale : Json := replaceAt .null [.member "sellAmount"] (order.encode sale)

/-- Seen from outside, the list of orders gives way to one with two faults. -/
theorem spoiled_salesWith (fees : Json) :
    replaceAt .null secondSellAmount (salesWith fees) =
      replaceAt (.list [saleWith fees, spoiledSale]) [.member "orders"] (auction.encode sales) :=
  rfl

theorem exists_saleWith_of_refused {fees : Json} {outer : Nat}
    (refused : ∀ outer, ∃ error, feePolicy.list.decode .text (fees.documentAt outer) = .error error)
    (accepted : ∃ sold, order.decode .text ((order.encode sale).documentAt outer) = .ok sold) :
    ∃ error, order.decode .text ((saleWith fees).documentAt outer) = .error error := by
  have policies : ⟨_, "protocolFees", feePolicy.list.decode⟩ ∈ orderParts := by simp [orderParts]
  have there : partAt? [.member "protocolFees"] (order.encode sale) = some (.list []) := rfl
  have replaced : Replaced _ fees _ _ (saleWith fees) :=
    replaced_replaceAt sale_fits.distinctKeys there
  obtain ⟨sold, accepted⟩ := accepted
  obtain ⟨inner, exchanged⟩ := replaced.exchanged_documentAt outer
  obtain ⟨error, refused⟩ := refused inner
  exact ⟨_, (order_focuses policies exchanged accepted).refuses error refused⟩

/-- Fees that no text can hold are found before the amount of the second order. -/
theorem salesWith_hides_fault {fees : Json} {bytes : List UInt8}
    (refused : ∀ outer, ∃ error, feePolicy.list.decode .text (fees.documentAt outer) = .error error)
    (rendered : Renders bytes (replaceAt .null secondSellAmount (salesWith fees))) (cause : Cause) :
    decodeText auction.decode bytes ≠ .error ⟨secondSellAmount, cause⟩ := by
  have orders : ⟨_, "orders", order.list.decode⟩ ∈ auctionParts := by simp [auctionParts]
  have there : partAt? [.member "orders"] (auction.encode sales) =
    some (.list [order.encode sale, order.encode sale]) := rfl
  have replaced : Replaced _ (.list [saleWith fees, spoiledSale]) _ _ _ :=
    replaced_replaceAt sales_fits.distinctKeys there
  obtain ⟨outer, exchanged⟩ := replaced.exchanged_documentAt 0
  obtain ⟨found, accepted⟩ := exists_decodeText_sales
  rw [decodeText_of_read _ sales_renders] at accepted
  rw [decodeText_of_read _ rendered, spoiled_salesWith]
  have hinges := auction_focuses orders exchanged accepted
  have inside : ∃ orders, order.decode.list .text
    (documentAt outer (.list [order.encode sale, order.encode sale])) = .ok orders := hinges.inside
  -- What is inside of the list is at the depth at which the first order was accepted before.
  obtain ⟨items, same, each⟩ := exists_list_eq_ok_iff.mp inside
  obtain ⟨rfl, -, -⟩ := Document.list.inj same
  have first := exists_saleWith_of_refused refused (each _ List.mem_cons_self)
  obtain ⟨error, ordersRefused, inFirst⟩ := exists_list_of_refused first
  rw [hinges.refuses error ordersRefused]
  intro same
  have path : [.member "orders"] ++ error.path = secondSellAmount :=
    congrArg Error.path (Except.error.inj same)
  cases inFirst 1 _ (List.append_cancel_left path)

/-!
## Where faults are found
-/

/-- Where an auction is accepted and an amount, an address or a hex text in it gives way to
what cannot be read there, the auction is refused with the path to that place and with the
cause that is found there. Its text is refused with the same path, if the text of the first
auction was accepted, which it is unless it nests too deep; and the engine tells the path to
whoever sent the text. All but the texts of amounts are refused as amounts. -/
theorem faults_are_located {error : Error} (text : TextAt path part)
    (distinct : whole.DistinctKeys) (accepted : ∃ found, decodeValue auction.decode whole = .ok found)
    (there : ∃ old, partAt? path whole = some old)
    (refused : decodeValue part.decode new = .error error) :
    decodeValue auction.decode (replaceAt new path whole) = .error ⟨path, error.cause⟩ ∧
      (∀ bytes changed, Renders bytes whole → Renders changed (replaceAt new path whole) →
        (∃ found, decodeText auction.decode bytes = .ok found) →
        (∃ cause, decodeText auction.decode changed = .error ⟨path, cause⟩) ∧
          ∀ (engine : Engine) (now : Clock.Timestamp) (request : Http.Request),
            request.path = "/solve" → request.method = "POST" → request.body = changed →
            ∃ description,
              engine.answer now request =
                (⟨400, .json (refusal.encode ⟨"InvalidRequest", description⟩)⟩, engine) ∧
              ∃ before after, description = before ++ renderPath path ++ after) ∧
      (∀ bytes, Spells bytes whole → ∃ found, decodeText auction.decode bytes = .ok found) ∧
      ∀ value, (∃ error, decodeValue Codec.amount.decode value = .error error) ↔
        ¬ ∃ amount : Amount, value = .text (Decimal.print amount.value) := by
  refine ⟨text.refused_value distinct accepted there refused, ?_,
    fun _ spelled => exists_decodeText_of_spells spelled distinct accepted,
    fun _ => amount_refuses_iff⟩
  intro bytes changed written rewritten acceptedText
  have located := text.refused_text distinct there refused written rewritten acceptedText
  refine ⟨⟨_, located⟩, fun engine now request solves posted same => ?_⟩
  subst same
  exact Engine.answer_solve_of_refused solves posted located

theorem null_sell_amount_is_located :
    let written := Text.Utf8.ofString (auction.encode sales).print
    let spoiled := replaceAt .null secondSellAmount (auction.encode sales)
    TextAt secondSellAmount ⟨_, "sellAmount", Codec.amount.decode⟩ ∧
      (auction.encode sales).DistinctKeys ∧
      (∃ found, decodeValue auction.decode (auction.encode sales) = .ok found) ∧
      (∃ old, partAt? secondSellAmount (auction.encode sales) = some old) ∧
      decodeValue Codec.amount.decode .null = .error (.here (.invalidType .null .amount)) ∧
      Renders written (auction.encode sales) ∧
      Renders (Text.Utf8.ofString spoiled.print) spoiled ∧
      (∃ found, decodeText auction.decode written = .ok found) ∧
      decodeValue auction.decode spoiled =
        .error ⟨secondSellAmount, .invalidType .null .amount⟩ ∧
      (∃ cause, decodeText auction.decode (Text.Utf8.ofString spoiled.print) =
        .error ⟨secondSellAmount, cause⟩) ∧
      renderPath secondSellAmount = "orders[1].sellAmount" := by
  intro written spoiled
  have distinct := sales_fits.distinctKeys
  obtain ⟨old, there⟩ : ∃ old, partAt? secondSellAmount (auction.encode sales) = some old :=
    ⟨_, rfl⟩
  have refused : decodeValue Codec.amount.decode .null =
    .error (.here (.invalidType .null .amount)) := rfl
  have replaced : Replaced _ .null secondSellAmount (auction.encode sales) spoiled :=
    replaced_replaceAt distinct there
  have rendered := renders_null_of_replaced replaced sales_fits reals_sales
  obtain ⟨located, texts, -⟩ :=
    faults_are_located secondSellAmount_textAt distinct exists_decodeValue_sales ⟨_, there⟩ refused
  exact ⟨secondSellAmount_textAt, distinct, exists_decodeValue_sales, ⟨_, there⟩, refused,
    sales_renders, rendered, exists_decodeText_sales, located,
    (texts _ _ sales_renders rendered exists_decodeText_sales).1, by decide +kernel⟩

/-- An auction in memory may hold fees that no text can hold. In its text they are found
before a fault in a later order. -/
theorem deep_fees_hide_fault :
    let whole := salesWith (deepFees 129)
    let spoiled := replaceAt .null secondSellAmount whole
    let bytes := Text.Utf8.ofString spoiled.print
    TextAt secondSellAmount ⟨_, "sellAmount", Codec.amount.decode⟩ ∧ whole.DistinctKeys ∧
      (∃ found, decodeValue auction.decode whole = .ok found) ∧
      (∃ old, partAt? secondSellAmount whole = some old) ∧
      (∃ error, decodeValue Codec.amount.decode .null = .error error) ∧
      Renders bytes spoiled ∧
      ¬ ∃ cause, decodeText auction.decode bytes = .error ⟨secondSellAmount, cause⟩ := by
  intro whole spoiled bytes
  obtain ⟨old, replaced⟩ := salesWith_replaced (deepFees 129)
  have fits : whole.Fits (6 + 131) := replaced.fits sales_fits (deepFees_fits 129)
  have distinct := fits.distinctKeys
  have accepted : ∃ found, decodeValue auction.decode whole = .ok found :=
    exists_decodeValue_salesWith (exists_decodeValue_deepFees 129)
  obtain ⟨sold, there⟩ : ∃ sold, partAt? secondSellAmount whole = some sold := ⟨_, rfl⟩
  have plain : whole.reals = [] := replaced.reals_eq_nil reals_sales (reals_deepFees 129)
  have rendered : Renders bytes spoiled :=
    renders_null_of_replaced (replaced_replaceAt distinct there) fits plain
  refine ⟨secondSellAmount_textAt, distinct, accepted, ⟨sold, there⟩, ⟨_, rfl⟩, rendered, ?_⟩
  rintro ⟨cause, refused⟩
  exact salesWith_hides_fault (exists_deepFees_of_refused (by decide)) rendered cause refused

end Wire

end BatchAuction
