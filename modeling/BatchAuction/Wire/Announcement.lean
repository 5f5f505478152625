import BatchAuction.Announcement
import BatchAuction.Wire.Scalar

/-!
# Announced solutions on the wire
-/

set_option autoImplicit false

namespace BatchAuction.Wire

open Fields

def orderUid : Codec OrderUid := .fixedBytes 56

def fulfillmentFields : Fields AnnouncedFulfillment AnnouncedFulfillment :=
  pure AnnouncedFulfillment.mk
    <*> required "order" orderUid (·.order)
    <*> required "executedAmount" .amount (·.executedAmount)
    <*> optional "fee" .amount (·.fee)

def trade : Codec AnnouncedTrade where
  decode := Decoder.union "Trade"
    [("fulfillment", (fulfillmentFields.decoder (.record "Fulfillment")).map .fulfillment)]
  encode
    | .fulfillment trade => tagged "fulfillment" (fulfillmentFields.write trade)

/-- The members of a use of liquidity. -/
def swapFields : Fields AnnouncedSwap AnnouncedSwap :=
  pure AnnouncedSwap.mk
    <*> required "internalize" .boolean (·.internalize)
    <*> required "id" .text (·.id)
    <*> required "inputToken" .address (·.inputToken)
    <*> required "outputToken" .address (·.outputToken)
    <*> required "inputAmount" .amount (·.inputAmount)
    <*> required "outputAmount" .amount (·.outputAmount)

def interaction : Codec AnnouncedInteraction where
  decode := Decoder.union "Interaction"
    [("liquidity", (swapFields.decoder (.record "LiquidityInteraction")).map .liquidity)]
  encode
    | .liquidity swap => tagged "liquidity" (swapFields.write swap)

def announcement : Codec Announcement := .record "Solution" <|
  pure Announcement.mk
    <*> required "id" .unsigned64 (·.id)
    <*> required "prices" (.table .replaces .amount) (·.prices)
    <*> required "trades" trade.list (·.trades)
    <*> required "interactions" interaction.list (·.interactions)
    <*> optional "gas" .unsigned64 (·.gas)

/-- All solutions that are announced for an auction. -/
def announcements : Codec Announcements := .record "Solutions" <|
  pure Announcements.mk <*> required "solutions" announcement.list (·.solutions)

end BatchAuction.Wire
