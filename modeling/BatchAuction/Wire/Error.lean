import BatchAuction.Clock.Timestamp
import BatchAuction.Decimal.Scaled
import BatchAuction.Hex
import BatchAuction.Json.Document

/-!
# Validation errors

A payload that does not have the expected shape is refused with the path of the
offending member and the cause. The wording of every cause is fixed here. Of a text
the reader also tells line and column where it stopped, after that wording; where a
reader stops is not recorded here, so descriptions of faults in texts end early.
-/

set_option autoImplicit false

namespace BatchAuction.Wire

/-- A step from a container into it. -/
inductive Segment where
  | member (key : String)
  | element (index : Nat)
  /-- A place in an object where no key is known yet. -/
  | unnamed
deriving DecidableEq, Repr

/-- A step as text, without the point that divides steps. -/
def Segment.render : Segment → String
  | .member key => key
  | .element index => "[" ++ Decimal.print index ++ "]"
  | .unnamed => "?"

/-- Steps after the first one; all but indices are set off by a point. -/
def renderSteps : List Segment → String
  | [] => ""
  | .element index :: rest => (Segment.element index).render ++ renderSteps rest
  | step :: rest => "." ++ step.render ++ renderSteps rest

/-- A path as text. A single point is the root. -/
def renderPath : List Segment → String
  | [] => "."
  | step :: rest => step.render ++ renderSteps rest

/-- Whose members an object holds. -/
inductive Owner where
  | record (name : String)
  | variant (union name : String)
deriving DecidableEq, Repr

def Owner.render : Owner → String
  | .record name => "struct " ++ name
  | .variant union name => "struct variant " ++ union ++ "::" ++ name

/-- What a decoder wants. -/
inductive Expected where
  | owned (owner : Owner)
  | union (name : String)
  | variantName
  | variantIndex (count : Nat)
  | unsigned (bits : Nat)
  | signed (bits : Nat)
  | real
  | boolean
  | text
  | sequence
  | map
  | nothing
  | textOrMap
  | singleMember
  | amount
  | timestamp
  | decimal
  | members (owner : Owner) (count : Nat)
  | fewerItems
  | items (count : Nat)
deriving DecidableEq, Repr

def counted (count : Nat) : String :=
  Decimal.print count ++ if count = 1 then " element" else " elements"

/-- What a decoder wants, as text. -/
def Expected.render : Expected → String
  | .owned owner => owner.render
  | .union name => "internally tagged enum " ++ name
  | .variantName => "variant identifier"
  | .variantIndex count => "variant index 0 <= i < " ++ Decimal.print count
  | .unsigned bits => "u" ++ Decimal.print bits
  | .signed bits => "i" ++ Decimal.print bits
  | .real => "f64"
  | .boolean => "a boolean"
  | .text => "a string"
  | .sequence => "a sequence"
  | .map => "a map"
  | .nothing => "unit"
  | .textOrMap => "string or map"
  | .singleMember => "map with a single key"
  | .amount => "a 256-bit unsigned integer as a decimal string"
  | .timestamp => "an RFC 3339 formatted date and time string"
  | .decimal => "a number or formatted decimal string"
  | .members owner count => owner.render ++ " with " ++ counted count
  | .fewerItems => "fewer elements in array"
  | .items count => counted count ++ " in sequence"

/-- What a decoder finds, as text. -/
def renderFound : Json.Found → String
  | .null => "null"
  | .boolean value => "boolean `" ++ (if value then "true" else "false") ++ "`"
  | .number (.integer value) => "integer `" ++ Json.printInteger value ++ "`"
  | .number (.real value) => "floating point `" ++ value.print ++ "`"
  | .text value => "string " ++ Text.quoted value
  | .sequence => "sequence"
  | .map => "map"

/-- The bytes that a hex text should denote. -/
inductive BytesKind where
  | any
  | exactly (size : Nat)
  | address
deriving DecidableEq, Repr

/-- The bytes that a hex text should denote, as text. -/
def BytesKind.render : BytesKind → String
  | .any => "a hex string"
  | .exactly size => Decimal.print size ++ " hex encoded bytes"
  | .address => "an address"

/-- Why a payload is refused. -/
inductive Cause where
  | fault (damage : Json.Fault)
  | invalidType (found : Json.Found) (expected : Expected)
  | invalidValue (found : Json.Found) (expected : Expected)
  | invalidLength (length : Nat) (expected : Expected)
  | missingField (name : String)
  | duplicateField (name : String)
  | unknownVariant (name : String) (known : List String)
  | duplicateKey
  | noAlternative (name : String)
  | neither (first second : Cause)
  | amount (text : String) (error : Decimal.ParseError)
  | bytes (text : String) (kind : BytesKind) (error : Hex.ParseError)
  | integer (error : Decimal.IntegerError)
  | decimal (error : Decimal.Scaled.ParseError)
  | timestamp (error : Clock.Timestamp.ParseError)
  | notObject (text : String)

def ticked (name : String) : String := "`" ++ name ++ "`"

/-- The names that would have been accepted, as text. -/
def renderKnown : List String → String
  | [] => "there are no variants"
  | [only] => "expected " ++ ticked only
  | [first, second] => "expected " ++ ticked first ++ " or " ++ ticked second
  | names => "expected one of " ++ ", ".intercalate (names.map ticked)

/-- Why a payload is refused, as text. -/
def Cause.message : Cause → String
  | .fault damage => damage.message
  | .invalidType found expected =>
      "invalid type: " ++ renderFound found ++ ", expected " ++ expected.render
  | .invalidValue found expected =>
      "invalid value: " ++ renderFound found ++ ", expected " ++ expected.render
  | .invalidLength length expected =>
      "invalid length " ++ Decimal.print length ++ ", expected " ++ expected.render
  | .missingField name => "missing field " ++ ticked name
  | .duplicateField name => "duplicate field " ++ ticked name
  | .unknownVariant name known =>
      "unknown variant " ++ ticked name ++ ", " ++ renderKnown known
  | .duplicateKey => "invalid entry: found duplicate key"
  | .noAlternative name => "data did not match any variant of untagged enum " ++ name
  | .neither first second =>
      "PickFirst could not deserialize any variant:\n  First: " ++ first.message ++
        "\n  Second: " ++ second.message
  | .amount text error =>
      "failed to decode " ++ Text.quoted text ++ " as a 256-bit number: " ++ error.message
  | .bytes text kind error =>
      "failed to decode " ++ Text.quoted text ++ " as " ++ kind.render ++ ": " ++ error.message
  | .integer error => error.message
  | .decimal error => error.message
  | .timestamp error => error.message
  | .notObject text => "expected a JSON object but got " ++ text

structure Error where
  path : List Segment
  cause : Cause

namespace Error

/-- A refusal of the value as a whole. -/
def here (cause : Cause) : Error := ⟨[], cause⟩

/-- A refusal seen from one container further out. -/
def under (segment : Segment) (error : Error) : Error := ⟨segment :: error.path, error.cause⟩

/-- A refusal of something that is no longer at its place in the payload, charged
to the value as a whole. -/
def collapsed (error : Error) : Error := here error.cause

def location (error : Error) : String := renderPath error.path

def message (error : Error) : String := error.cause.message

def render (error : Error) : String :=
  "invalid value at " ++ error.location ++ ": " ++ error.message

end Error

end BatchAuction.Wire
