import BatchAuction.Json.Printer
import BatchAuction.Notification
import BatchAuction.Wire.Alternative
import BatchAuction.Wire.Scalar

/-!
# Notifications on the wire

A notification names its kind beside its own identifiers, so the members of the
kind stand in the same object. Reading is strict or lenient: the lenient reader
keeps every object, as a notification of unrecognized kind if need be.
-/

set_option autoImplicit false

namespace BatchAuction.Wire

open Fields

/-- The solution that a notification is about: one identifier or a list of them. -/
def solutionReference : Decoder SolutionReference :=
  Decoder.firstOf "SolutionId"
    [Codec.solutionId.decode.map .single, Codec.unsigned64.decode.list.map .merged]

def transactionFields : Fields Transaction Transaction :=
  pure Transaction.mk
    <*> required "from" .address (·.sender)
    <*> required "to" .address (·.recipient)
    <*> required "input" .bytes (·.input)
    <*> required "value" .amount (·.value)

def transaction : Codec Transaction := .record "Tx" transactionFields

/-- Reads the members of a kind; nothing is ever written. -/
def kindMembers (name : String) (fields : Fields Unit NotificationKind) :
    Decoder NotificationKind :=
  fields.decoder (.variant "Kind" name)

/-- A member that is only read. -/
def given {α : Type} (name : String) (decode : Decoder α) : Fields Unit α :=
  member name decode none fun _ => []

def notificationKinds : List (String × Decoder NotificationKind) :=
  [("timeout", .constant .timeout),
    ("emptySolution", .constant .emptySolution),
    ("duplicatedSolutionId", .constant .duplicatedSolutionId),
    ("simulationFailed", kindMembers "SimulationFailed" <|
      pure NotificationKind.simulationFailed
        <*> given "block" Codec.unsigned64.decode
        <*> given "tx" transaction.decode
        <*> member "succeededOnce" Decoder.boolean (some false) fun _ => []),
    ("invalidClearingPrices", .constant .invalidClearingPrices),
    ("missingPrice", kindMembers "MissingPrice" <|
      pure NotificationKind.missingPrice <*> given "tokenAddress" Codec.address.decode),
    ("invalidExecutedAmount", .constant .invalidExecutedAmount),
    ("nonBufferableTokensUsed", kindMembers "NonBufferableTokensUsed" <|
      pure NotificationKind.nonBufferableTokensUsed <*> given "tokens" Codec.addressSet.decode),
    ("solverAccountInsufficientBalance", kindMembers "SolverAccountInsufficientBalance" <|
      pure NotificationKind.solverAccountInsufficientBalance
        <*> given "required" Codec.amount.decode),
    ("success", kindMembers "Success" <|
      pure NotificationKind.success <*> given "transaction" (Codec.fixedBytes 32).decode),
    ("revert", kindMembers "Revert" <|
      pure NotificationKind.revert <*> given "transaction" (Codec.fixedBytes 32).decode),
    ("driverError", kindMembers "DriverError" <|
      pure NotificationKind.driverError <*> given "reason" Decoder.text),
    ("cancelled", .constant .cancelled),
    ("fail", .constant .fail),
    ("postprocessingTimedOut", .constant .postprocessingTimedOut),
    ("banned", kindMembers "Banned" <|
      pure NotificationKind.banned
        <*> given "reason" Decoder.text
        <*> given "until" Codec.unsigned64.decode)]

/-- The members of a notification beside those of its kind. -/
def notificationFields : Fields Unit (NotificationKind → Notification) :=
  pure (fun auctionId solution kind => Notification.mk auctionId solution kind)
    <*> member "auctionId" Codec.auctionId.decode.option (some none) (fun _ => [])
    <*> member "solutionId" solutionReference.option (some none) (fun _ => [])

/-- Reads a notification of a known kind. -/
def notification : Decoder Notification :=
  Decoder.flattened "Notification" notificationFields (Decoder.union "Kind" notificationKinds)

/-- An auction identifier, whatever its form. -/
def looseAuctionId? : Json → Option Int64
  | .number (.integer value) =>
      if Int64.minValue.toInt ≤ value ∧ value ≤ Int64.maxValue.toInt then
        some (Int64.ofInt value)
      else none
  | .text s =>
      match Decimal.parseSigned Int64.maxValue.toNatClampNeg s with
      | .ok value => some (Int64.ofInt value)
      | .error _ => none
  | _ => none

/-- Reads any object as a notification. An object of no known form keeps whatever
identifiers it has. -/
def lenientNotification (value : Json) : Except Error Notification :=
  match value with
  | .object _ =>
      match decodeValue notification value with
      | .ok notification => .ok notification
      | .error _ => .ok {
          auctionId := (value.member? "auctionId").bind looseAuctionId?
          solution := (value.member? "solutionId").bind fun id =>
            (decodeValue solutionReference id).toOption
          kind := .unrecognized ((value.member? "kind").bind Json.asText?) }
  | _ => .error (.here (.notObject value.print))

end BatchAuction.Wire
