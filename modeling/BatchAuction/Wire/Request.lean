import BatchAuction.Request
import BatchAuction.Wire.Auction

/-!
# Requests and answers on the wire
-/

set_option autoImplicit false

namespace BatchAuction.Wire

open Fields

/-- A request for the calldata of a solution. -/
def revealRequest : Codec RevealRequest := .record "Request" <|
  pure RevealRequest.mk
    <*> required "solutionId" .solutionId (·.solutionId)
    <*> required "auctionId" .auctionReference (·.auctionId)

def calldata : Codec Calldata := .record "Calldata" <|
  pure Calldata.mk
    <*> required "internalized" .bytes (·.internalized)
    <*> required "uninternalized" .bytes (·.uninternalized)

/-- The answer to a reveal request. -/
def revealResponse : Codec RevealResponse := .record "Response" <|
  pure RevealResponse.mk <*> required "calldata" calldata (·.calldata)

/-- The news that a solution must be settled. -/
def settleRequest : Codec SettleRequest := .record "Request" <|
  pure SettleRequest.mk
    <*> required "solutionId" .solutionId (·.solutionId)
    <*> required "submissionDeadlineLatestBlock" .unsigned64
      (·.submissionDeadlineLatestBlock)
    <*> required "auctionId" .auctionReference (·.auctionId)

def settleResponse : Codec SettleResponse := .record "Response" (pure SettleResponse.mk)

/-- Why a request was refused. -/
def refusal : Codec Refusal := .record "Error" <|
  pure Refusal.mk
    <*> required "kind" .text (·.kind)
    <*> required "description" .text (·.description)

/-- The members of a quote request. -/
def quoteRequestFields : Fields QuoteRequest QuoteRequest :=
  pure QuoteRequest.mk
    <*> required "sellToken" .address (·.sellToken)
    <*> required "buyToken" .address (·.buyToken)
    <*> required "kind" side (·.side)
    <*> required "amount" .amount (·.amount)
    <*> required "deadline" .timestamp (·.deadline)

/-- A request for the price of a trade. -/
def quoteRequest : Codec QuoteRequest := .record "Request" quoteRequestFields

end BatchAuction.Wire
