import BatchAuction.Wire.Decoder

/-!
# Codecs

A codec holds both directions of a wire format. The members of a record are
declared once, each with its name, its codec and the part of the record that it
carries, and serve for reading and for writing.

Members may come in any order. Of two faults in an object the one that stands
earlier in the document wins; a missing member counts as standing at its end, and
of several missing ones the one declared first is named.
-/

set_option autoImplicit false

namespace BatchAuction.Wire

/-- Both directions of a wire format. -/
structure Codec (α : Type) where
  decode : Decoder α
  encode : α → Json

/-- An error and the index of the member that it stands at. -/
structure Placed where
  place : Nat
  error : Error

/-- The earlier of two errors; of two at one place the first. -/
def Placed.earlier (first second : Placed) : Placed :=
  if second.place < first.place then second else first

/-- A reader's outcome, with the place of its error. -/
abbrev PlacedResult (α : Type) := Except Placed α

/-- Both outcomes, or the earlier error. -/
def PlacedResult.both {α β γ : Type} (combine : α → β → γ) :
    PlacedResult α → PlacedResult β → PlacedResult γ
  | .ok first, .ok second => .ok (combine first second)
  | .error error, .ok _ => .error error
  | .ok _, .error error => .error error
  | .error first, .error second => .error (first.earlier second)

/-- Members of a record of type `σ`, read together as a value of type `α`. -/
structure Fields (σ α : Type) where
  /-- The names in the order of declaration. -/
  names : List String
  /-- Reads the members of an object. -/
  fromMembers : Medium → Members → PlacedResult α
  /-- Reads list items from the given index on and leaves the rest; the first
  argument says what is wrong where one is missing. -/
  fromItems : Medium → (missing : Nat → Cause) → Json.ListEnd → (index : Nat) →
    List Json.Document → Except Error (α × List Json.Document)
  write : σ → List (String × Json)

namespace Fields

variable {σ α β : Type}

def const (value : α) : Fields σ α where
  names := []
  fromMembers _ _ := .ok value
  fromItems _ _ _ _ items := .ok (value, items)
  write _ := []

def append (first : Fields σ (α → β)) (second : Fields σ α) : Fields σ β where
  names := first.names ++ second.names
  fromMembers medium members :=
    PlacedResult.both (fun f x => f x) (first.fromMembers medium members)
      (second.fromMembers medium members)
  fromItems medium missing ending index items := do
    let (f, items) ← first.fromItems medium missing ending index items
    let (x, items) ← second.fromItems medium missing ending (index + first.names.length) items
    return (f x, items)
  write record := first.write record ++ second.write record

instance : Pure (Fields σ) := ⟨const⟩

instance : Seq (Fields σ) := ⟨fun first second => append first (second ())⟩

/-- The places and values of the members of a name. -/
def occurrences (name : String) : (place : Nat) → List (String × Json.Document) →
    List (Nat × Json.Document)
  | _, [] => []
  | place, (key, value) :: rest =>
      if key = name then (place, value) :: occurrences name (place + 1) rest
      else occurrences name (place + 1) rest

/-- The place of a second member of a name, which may lack its value. -/
def repetition? (members : Members) (name : String) : List (Nat × Json.Document) → Option Nat
  | (place, _) :: _ => some place
  | [] => if members.keyOnly = some name then some members.entries.length else none

/-- Reads the member of a name; `absent` stands for a missing one. -/
def fromMember (name : String) (decode : Decoder α) (absent : Option α) (medium : Medium)
    (members : Members) : PlacedResult α :=
  match occurrences name 0 members.entries with
  | [] =>
      match absent with
      | some value => .ok value
      | none => .error ⟨members.entries.length + 1, .here (.missingField name)⟩
  | (place, document) :: others =>
      match decode medium document with
      | .error error => .error ⟨place, error.under (.member name)⟩
      | .ok value =>
          match repetition? members name others with
          | some place => .error ⟨place, .here (.duplicateField name)⟩
          | none => .ok value

/-- Reads one list item; `absent` stands for a missing one. -/
def fromItem (decode : Decoder α) (absent : Option α) (medium : Medium)
    (missing : Nat → Cause) (ending : Json.ListEnd) (index : Nat) :
    List Json.Document → Except Error (α × List Json.Document)
  | item :: rest =>
      match decode medium item with
      | .ok value => .ok (value, rest)
      | .error error => .error (error.under (.element index))
  | [] =>
      match ending.read?, absent with
      | some fault, _ => damaged fault
      | none, some value => .ok (value, [])
      | none, none => .error (.here (missing index))

/-- One member, with what stands for a missing one and what is written. -/
def member (name : String) (decode : Decoder α) (absent : Option α)
    (write : σ → List (String × Json)) : Fields σ α where
  names := [name]
  fromMembers := fromMember name decode absent
  fromItems := fromItem decode absent
  write := write

/-- A member that must be there. -/
def required (name : String) (codec : Codec α) (get : σ → α) : Fields σ α :=
  member name codec.decode none fun record => [(name, codec.encode (get record))]

/-- A member that may be missing but is always written. -/
def defaulted (name : String) (codec : Codec α) (absent : α) (get : σ → α) : Fields σ α :=
  member name codec.decode (some absent) fun record => [(name, codec.encode (get record))]

/-- A member that may be missing or null and is written only if it has a value. -/
def optional (name : String) (codec : Codec α) (get : σ → Option α) : Fields σ (Option α) :=
  member name codec.decode.option (some none) fun record =>
    match get record with
    | some value => [(name, codec.encode value)]
    | none => []

/-- The first damage in members of other names, which are passed over. -/
def strayError? (names : List String) : (place : Nat) → List (String × Json.Document) →
    Option Placed
  | _, [] => none
  | place, (key, value) :: rest =>
      if names.contains key then strayError? names (place + 1) rest
      else
        match value.skip? with
        | some fault => some ⟨place, (Error.here (.fault fault)).under (.member key)⟩
        | none => strayError? names (place + 1) rest

/-- Lets an earlier error win over an outcome. -/
def unlessEarlier (outcome : PlacedResult α) : Option Placed → PlacedResult α
  | none => outcome
  | some other =>
      match outcome with
      | .ok _ => .error other
      | .error error => .error (error.earlier other)

/-- Reads an object. Members of other names are passed over. -/
def readObject (fields : Fields σ α) (medium : Medium) (members : Members) : Except Error α :=
  let tail := members.tail.map fun error => ⟨members.entries.length, error⟩
  let outcome := unlessEarlier
    (unlessEarlier (fields.fromMembers medium members)
      (strayError? fields.names 0 members.entries)) tail
  outcome.mapError (·.error)

/-- What is said of items after the last one that is wanted. -/
def surplus? (medium : Medium) (wanted length : Nat) (ending : Json.ListEnd) :
    List Json.Document → Option Cause
  | [] => ending.full?.map .fault
  | .leadingComma true :: _ => some (.fault .trailingComma)
  | _ :: _ => some <|
      match medium with
      | .text => .fault .trailingCharacters
      | .value => .invalidLength length .fewerItems
      | .buffer => .invalidLength length (.items wanted)

/-- Reads a list that holds the members in the order of declaration. -/
def readList (fields : Fields σ α) (owner : Owner) (medium : Medium)
    (ending : Json.ListEnd) (items : List Json.Document) : Except Error α := do
  let wanted := fields.names.length
  let missing := fun index => Cause.invalidLength index (.members owner wanted)
  let (value, rest) ← fields.fromItems medium missing ending 0 items
  match surplus? medium wanted items.length ending rest with
  | none => return value
  | some cause => throw (.here cause)

/-- Reads a record from an object or from a list. -/
def decoder (fields : Fields σ α) (owner : Owner) : Decoder α := fun medium document =>
  match document with
  | .object members ending tooDeep =>
      if tooDeep then damaged .tooDeep
      else fields.readObject medium (Members.of ending members)
  | .list items ending tooDeep =>
      if tooDeep then damaged .tooDeep
      else fields.readList owner medium ending items
  | document => mismatch (.owned owner) document

/-- Writes a record as an object. -/
def encode (fields : Fields σ α) (record : σ) : Json := .object (fields.write record)

end Fields

namespace Codec

variable {α β : Type}

def record (name : String) (fields : Fields α α) : Codec α where
  decode := fields.decoder (.record name)
  encode := fields.encode

/-- A list of values of one kind. -/
def list (codec : Codec α) : Codec (List α) where
  decode := codec.decode.list
  encode values := .list (values.map codec.encode)

def option (codec : Codec α) : Codec (Option α) where
  decode := codec.decode.option
  encode
    | some value => codec.encode value
    | none => .null

/-- A format of another type, seen through a pair of functions. -/
def map (read : α → β) (write : β → α) (codec : Codec α) : Codec β where
  decode := codec.decode.map read
  encode value := codec.encode (write value)

end Codec

end BatchAuction.Wire
