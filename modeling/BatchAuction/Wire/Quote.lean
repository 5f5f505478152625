import BatchAuction.QuoteResponse
import BatchAuction.Wire.Auction

/-!
# Answers to quote requests on the wire

These are only ever written.
-/

set_option autoImplicit false

namespace BatchAuction.Wire

/-- A member that is written only if it has a value. -/
def present {α : Type} (name : String) (encode : α → Json) : Option α → List (String × Json)
  | some value => [(name, encode value)]
  | none => []

def encodeCall (call : ContractCall) : Json := .object (contractCallFields.write call)

/-- A price, which may exceed a word. -/
def encodePrice (price : Nat) : Json := .text (Decimal.print price)

/-- An order of the solver's own. -/
def encodeJitOrder (order : JitOrder) : Json :=
  .object
    [("sellToken", Codec.address.encode order.sellToken),
      ("buyToken", Codec.address.encode order.buyToken),
      ("sellAmount", Codec.amount.encode order.sellAmount),
      ("buyAmount", Codec.amount.encode order.buyAmount),
      ("executedAmount", Codec.amount.encode order.executedAmount),
      ("receiver", Codec.address.encode order.receiver),
      ("validTo", Codec.unsigned32.encode order.validTo),
      ("side", side.encode order.side),
      ("partiallyFillable", .boolean order.partiallyFillable),
      ("sellTokenSource", sellSource.encode order.sellSource),
      ("buyTokenSource", buyDestination.encode order.buyDestination),
      ("appData", .text order.appData.print),
      ("signature", Codec.bytes.encode order.signature),
      ("signingScheme", signingScheme.encode order.signingScheme)]

def encodeStandardQuote (quote : StandardQuote) : Json :=
  .object <|
    [("clearingPrices",
        .object (quote.clearingPrices.entries.map fun entry =>
          (entry.1.print, encodePrice entry.2))),
      ("preInteractions", .list (quote.preInteractions.map encodeCall)),
      ("interactions", .list (quote.interactions.map encodeCall)),
      ("solver", Codec.address.encode quote.solver),
      ("gas", Codec.unsigned64.encode quote.gas)] ++
    present "txOrigin" Codec.address.encode quote.txOrigin ++
    [("jitOrders", .list (quote.jitOrders.map encodeJitOrder))]

def encodeLegacyQuote (quote : LegacyQuote) : Json :=
  .object <|
    [("amount", Codec.amount.encode quote.amount),
      ("interactions", .list (quote.interactions.map encodeCall)),
      ("solver", Codec.address.encode quote.solver),
      ("gas", Codec.unsigned64.encode quote.gas)] ++
    present "txOrigin" Codec.address.encode quote.txOrigin

/-- An answer to a quote request. -/
def encodeQuoteResponse : QuoteResponse → Json
  | .standard quote => encodeStandardQuote quote
  | .legacy quote => encodeLegacyQuote quote

end BatchAuction.Wire
