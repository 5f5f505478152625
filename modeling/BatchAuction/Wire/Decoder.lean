import BatchAuction.Json.Reader
import BatchAuction.Wire.Error

/-!
# Decoders

A decoder turns a document into a value or refuses it. It meets documents in
three forms: the text as it is being read, a value held in memory, and the buffer
that holds an undecided alternative. The forms differ in how enumerations are
looked at and in what is said of a list that is too long, and only text can be
damaged.
-/

set_option autoImplicit false

namespace BatchAuction.Wire

/-- The form in which a document reaches a decoder. -/
inductive Medium where
  | text
  | value
  | buffer
deriving DecidableEq, Repr

/-- Reads a value of one kind. -/
abbrev Decoder (α : Type) := Medium → Json.Document → Except Error α

variable {α β : Type}

/-- Refuses a document as damaged. -/
def damaged (fault : Json.Fault) : Except Error α := .error (.here (.fault fault))

/-- Refuses a document that is not what was wanted. A document that cannot be read
is damaged first of all. -/
def mismatch (expected : Expected) (document : Json.Document) : Except Error α :=
  match document.found with
  | .ok found => .error (.here (.invalidType found expected))
  | .error fault => damaged fault

namespace Decoder

/-- Applies a function to what is read. -/
def map (f : α → β) (decoder : Decoder α) : Decoder β := fun medium document =>
  (decoder medium document).map f

def refine (decoder : Decoder α) (check : α → Except Cause β) : Decoder β :=
  fun medium document => do
    let value ← decoder medium document
    (check value).mapError .here

/-- A text; `expected` says what it should be. -/
def textAs (expected : Expected) : Decoder String := fun _ document =>
  match document with
  | .text (.ok value) => .ok value
  | document => mismatch expected document

def text : Decoder String := textAs .text

def boolean : Decoder Bool := fun _ document =>
  match document with
  | .boolean value => .ok value
  | document => mismatch .boolean document

def integer (least greatest : Int) (expected : Expected) : Decoder Int := fun _ document =>
  match document with
  | .number (.ok (.integer value)) =>
      if least ≤ value ∧ value ≤ greatest then .ok value
      else .error (.here (.invalidValue (.number (.integer value)) expected))
  | document => mismatch expected document

/-- A double; an integer is rounded to one. -/
def real : Decoder Binary64 := fun _ document =>
  match document with
  | .number (.ok (.integer value)) => .ok (Binary64.ofInt value)
  | .number (.ok (.real value)) => .ok value
  | document => mismatch .real document

/-- A value that may be null. -/
def option (decoder : Decoder α) : Decoder (Option α) := fun medium document =>
  match document with
  | .null => .ok none
  | document => (decoder medium document).map some

/-- Items from the given index on, up to the end of their list. -/
def itemsFrom (decoder : Decoder α) (medium : Medium) (ending : Json.ListEnd) :
    (index : Nat) → List Json.Document → Except Error (List α)
  | _, [] =>
      match ending.read? with
      | none => .ok []
      | some fault => damaged fault
  | index, item :: rest => do
      let value ← (decoder medium item).mapError (.under (.element index))
      let values ← itemsFrom decoder medium ending (index + 1) rest
      return value :: values

/-- A list of values of one kind. -/
def list (decoder : Decoder α) : Decoder (List α) := fun medium document =>
  match document with
  | .list items ending tooDeep =>
      if tooDeep then damaged .tooDeep else itemsFrom decoder medium ending 0 items
  | document => mismatch .sequence document

end Decoder

/-- The members of an object up to the first unreadable key, and the damage met
after them. A key whose colon is missing is known, and so is its repetition. -/
structure Members where
  entries : List (String × Json.Document)
  keyOnly : Option String
  tail : Option Error

/-- The damage at the end of an object, at its place. -/
def endError? (ending : Json.ObjectEnd) : Option Error :=
  ending.read?.map fun fault =>
    match ending with
    | .missingColon (.ok _) _ => .here (.fault fault)
    | _ => (Error.here (.fault fault)).under .unnamed

def Members.of (ending : Json.ObjectEnd) :
    List (Json.Readable String × Json.Document) → Members
  | [] =>
      let keyOnly := match ending with
        | .missingColon (.ok key) _ => some key
        | _ => none
      ⟨[], keyOnly, endError? ending⟩
  | (.error fault, _) :: _ => ⟨[], none, some ((Error.here (.fault fault)).under .unnamed)⟩
  | (.ok key, value) :: rest =>
      let members := Members.of ending rest
      { members with entries := (key, value) :: members.entries }

mutual

/-- Any value, with its members as they are written. -/
def readValue : Json.Document → Except Error Json
  | .null => .ok .null
  | .boolean value => .ok (.boolean value)
  | .number (.ok value) => .ok (.number value)
  | .number (.error fault) => damaged fault
  | .text (.ok value) => .ok (.text value)
  | .text (.error fault) => damaged fault
  | .list items ending tooDeep =>
      if tooDeep then damaged .tooDeep
      else (readItems ending 0 items).map .list
  | .object members ending tooDeep =>
      if tooDeep then damaged .tooDeep
      else (readMembers ending members).map .object
  | .absent => damaged .endInValue
  | .leadingComma _ => damaged .expectedValue
  | .brokenText read _ | .broken read _ => damaged read

/-- Items from the given index on. -/
def readItems (ending : Json.ListEnd) : (index : Nat) → List Json.Document →
    Except Error (List Json)
  | _, [] =>
      match ending.read? with
      | none => .ok []
      | some fault => damaged fault
  | index, item :: rest => do
      let value ← (readValue item).mapError (.under (.element index))
      let values ← readItems ending (index + 1) rest
      return value :: values

/-- Members in the order they are written. -/
def readMembers (ending : Json.ObjectEnd) :
    List (Json.Readable String × Json.Document) → Except Error (List (String × Json))
  | [] =>
      match endError? ending with
      | none => .ok []
      | some error => .error error
  | (.error fault, _) :: _ => .error ((Error.here (.fault fault)).under .unnamed)
  | (.ok key, document) :: rest => do
      let value ← (readValue document).mapError (.under (.member key))
      let values ← readMembers ending rest
      return (key, value) :: values

end

/-- Decodes the text of a document. After the value only blanks may follow. An error
has the path and the cause, without line and column of the text. -/
def decodeText (decoder : Decoder α) (bytes : List UInt8) : Except Error α := do
  let reading := Json.read bytes
  let value ← decoder .text reading.document
  if reading.trailing then damaged .trailingCharacters
  return value

/-- Decodes a value held in memory. -/
def decodeValue (decoder : Decoder α) (value : Json) : Except Error α :=
  decoder .value value.sorted.toDocument

/-- Any value, sorted for looking members up. -/
def anyValue : Decoder Json := fun _ document => (readValue document).map Json.sorted

/-- Decodes from a buffer, where inner places are lost. -/
def decodeBuffer (decoder : Decoder α) (value : Json) : Except Error α :=
  (decoder .buffer value.toDocument).mapError .collapsed

end BatchAuction.Wire
