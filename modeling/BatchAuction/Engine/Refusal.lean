import BatchAuction.Http.Message
import BatchAuction.Quote
import BatchAuction.Solver
import BatchAuction.Wire.Request

/-!
# Refused requests

Every refusal has a kind, which fixes its status and its description. Some give
details after the description.
-/

set_option autoImplicit false

namespace BatchAuction

/-- Why a request is refused. -/
inductive RefusalKind where
  | invalidRequest
  | quoteSameTokens
  | quotingFailed
  | solutionNotFound
  | unknown
deriving DecidableEq, Repr

namespace RefusalKind

def name : RefusalKind → String
  | .invalidRequest => "InvalidRequest"
  | .quoteSameTokens => "QuoteSameTokens"
  | .quotingFailed => "QuotingFailed"
  | .solutionNotFound => "SolutionNotFound"
  | .unknown => "Unknown"

def status : RefusalKind → Nat
  | .invalidRequest | .quoteSameTokens | .quotingFailed => 400
  | .solutionNotFound => 404
  | .unknown => 500

def description : RefusalKind → String
  | .invalidRequest => "Invalid request"
  | .quoteSameTokens => "Invalid quote with same buy and sell tokens"
  | .quotingFailed => "No valid quote found"
  | .solutionNotFound => "No solution found for the given ID"
  | .unknown => "An unknown error occurred"

/-- The answer that refuses a request. -/
def response (kind : RefusalKind) : Http.Response :=
  ⟨kind.status, .json (Wire.refusal.encode ⟨kind.name, kind.description⟩)⟩

/-- The answer that refuses a request and says more. -/
def responseWith (kind : RefusalKind) (details : String) : Http.Response :=
  ⟨kind.status,
    .json (Wire.refusal.encode ⟨kind.name, kind.description ++ ": " ++ details⟩)⟩

end RefusalKind

/-- The refusal of a body that does not have the expected shape. -/
def Wire.Error.response (error : Wire.Error) : Http.Response :=
  RefusalKind.invalidRequest.responseWith error.render

def QuoteError.response : QuoteError → Http.Response
  | .sameTokens => RefusalKind.quoteSameTokens.response
  | .overflow => RefusalKind.quotingFailed.responseWith QuoteError.overflow.message
  | .invalidRatio => RefusalKind.unknown.response

/-- The refusal of an auction whose solution cannot be settled. -/
def SettlementError.response : SettlementError → Http.Response
  | .missingPrice _ => RefusalKind.unknown.response

/-- The refusal of a solution that is not found. -/
def RevealError.response : RevealError → Http.Response
  | .notFound _ => RefusalKind.solutionNotFound.response

end BatchAuction
