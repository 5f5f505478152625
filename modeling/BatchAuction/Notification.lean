import BatchAuction.AddressMap
import BatchAuction.Amount

/-!
# Notifications

What became of a solution, as told by the driver of the auction.
-/

set_option autoImplicit false

namespace BatchAuction

/-- The solution that a notification is about: one solution, or several that were
merged into one. -/
inductive SolutionReference where
  | single (id : UInt64)
  | merged (ids : List UInt64)
deriving DecidableEq, Repr

structure Transaction where
  sender : Address
  recipient : Address
  input : List UInt8
  value : Amount
deriving DecidableEq

/-- What a notification says. -/
inductive NotificationKind where
  | timeout
  | emptySolution
  | duplicatedSolutionId
  | simulationFailed (block : UInt64) (transaction : Transaction) (succeededOnce : Bool)
  | invalidClearingPrices
  | missingPrice (token : Address)
  | invalidExecutedAmount
  | nonBufferableTokensUsed (tokens : AddressMap Unit)
  | solverAccountInsufficientBalance (required : Amount)
  | success (transaction : Digest)
  | revert (transaction : Digest)
  | driverError (reason : String)
  | cancelled
  | fail
  | postprocessingTimedOut
  | banned (reason : String) (lastBlock : UInt64)
  /-- A notification of no known kind, with the name of its kind if it has one. -/
  | unrecognized (kind : Option String)
deriving DecidableEq

structure Notification where
  auctionId : Option Int64
  solution : Option SolutionReference
  kind : NotificationKind
deriving DecidableEq

/-- The name of a kind. -/
def NotificationKind.label : NotificationKind → String
  | .timeout => "timeout"
  | .emptySolution => "emptySolution"
  | .duplicatedSolutionId => "duplicatedSolutionId"
  | .simulationFailed _ _ _ => "simulationFailed"
  | .invalidClearingPrices => "invalidClearingPrices"
  | .missingPrice _ => "missingPrice"
  | .invalidExecutedAmount => "invalidExecutedAmount"
  | .nonBufferableTokensUsed _ => "nonBufferableTokensUsed"
  | .solverAccountInsufficientBalance _ => "solverAccountInsufficientBalance"
  | .success _ => "success"
  | .revert _ => "revert"
  | .driverError _ => "driverError"
  | .cancelled => "cancelled"
  | .fail => "fail"
  | .postprocessingTimedOut => "postprocessingTimedOut"
  | .banned _ _ => "banned"
  | .unrecognized _ => "unrecognized"

/-- What the solver is told of the kind of a notification: everything but the transaction
of a failed simulation. -/
inductive Occurrence where
  | timeout
  | emptySolution
  | duplicatedSolutionId
  | simulationFailed (block : UInt64) (succeededOnce : Bool)
  | invalidClearingPrices
  | missingPrice (token : Address)
  | invalidExecutedAmount
  | nonBufferableTokensUsed (tokens : AddressMap Unit)
  | solverAccountInsufficientBalance (required : Amount)
  | success (transaction : Digest)
  | revert (transaction : Digest)
  | driverError (reason : String)
  | cancelled
  | fail
  | postprocessingTimedOut
  | banned (reason : String) (lastBlock : UInt64)
  | unrecognized (kind : Option String)
deriving DecidableEq

/-- The name under which notifications are counted. -/
def Occurrence.label : Occurrence → String
  | .timeout => "timeout"
  | .emptySolution => "emptySolution"
  | .duplicatedSolutionId => "duplicatedSolutionId"
  | .simulationFailed _ _ => "simulationFailed"
  | .invalidClearingPrices => "invalidClearingPrices"
  | .missingPrice _ => "missingPrice"
  | .invalidExecutedAmount => "invalidExecutedAmount"
  | .nonBufferableTokensUsed _ => "nonBufferableTokensUsed"
  | .solverAccountInsufficientBalance _ => "solverAccountInsufficientBalance"
  | .success _ => "success"
  | .revert _ => "revert"
  | .driverError _ => "driverError"
  | .cancelled => "cancelled"
  | .fail => "fail"
  | .postprocessingTimedOut => "postprocessingTimedOut"
  | .banned _ _ => "banned"
  | .unrecognized _ => "unrecognized"

/-- A notification as the solver is told of it. -/
structure Report where
  auctionId : Option Int64
  solution : Option SolutionReference
  occurrence : Occurrence
deriving DecidableEq

def NotificationKind.occurrence : NotificationKind → Occurrence
  | .timeout => .timeout
  | .emptySolution => .emptySolution
  | .duplicatedSolutionId => .duplicatedSolutionId
  | .simulationFailed block _ succeededOnce => .simulationFailed block succeededOnce
  | .invalidClearingPrices => .invalidClearingPrices
  | .missingPrice token => .missingPrice token
  | .invalidExecutedAmount => .invalidExecutedAmount
  | .nonBufferableTokensUsed tokens => .nonBufferableTokensUsed tokens
  | .solverAccountInsufficientBalance required => .solverAccountInsufficientBalance required
  | .success transaction => .success transaction
  | .revert transaction => .revert transaction
  | .driverError reason => .driverError reason
  | .cancelled => .cancelled
  | .fail => .fail
  | .postprocessingTimedOut => .postprocessingTimedOut
  | .banned reason lastBlock => .banned reason lastBlock
  | .unrecognized kind => .unrecognized kind

def Notification.report (notification : Notification) : Report where
  auctionId := notification.auctionId
  solution := notification.solution
  occurrence := notification.kind.occurrence

end BatchAuction
