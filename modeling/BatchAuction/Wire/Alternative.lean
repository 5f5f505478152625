import BatchAuction.Wire.Codec

/-!
# Enumerations and alternatives

Values with a fixed set of names, unions told apart by a tag, and values that may
be written in two ways. What is not decided by its first look is buffered, and a
refusal of buffered content is charged to the value as a whole.
-/

set_option autoImplicit false

namespace BatchAuction.Wire

variable {α β σ : Type}

/-- The entry of a name in a list of named things. -/
def named? (name : String) (entries : List (String × α)) : Option α :=
  (entries.find? fun entry => entry.1 = name).map (·.2)

/-- The entry of a name, or a refusal that lists the known ones. -/
def namedOrUnknown (entries : List (String × α)) (name : String) : Except Error α :=
  match named? name entries with
  | some value => .ok value
  | none => .error (.here (.unknownVariant name (entries.map (·.1))))

namespace Decoder

/-- Nothing, written as null. -/
def nothing : Decoder Unit := fun _ document =>
  match document with
  | .null => .ok ()
  | document => mismatch .nothing document

/-- What a text reader says of an object whose first key stands alone or is
missing. -/
def nameFault (entries : List (String × α)) : Json.ObjectEnd → Except Error α
  | .unfinished => damaged .endInValue
  | .strayKey (.ok found) => .error (.here (.invalidType found .variantName))
  | .strayKey (.error fault) => damaged fault
  | .brokenKey read _ => damaged read
  | .missingColon (.error fault) _ => damaged fault
  | .missingColon (.ok name) atEnd => do
      let _ ← namedOrUnknown entries name
      damaged (Json.missingColonFault atEnd)
  | .closed | .unfinishedAfterComma | .trailingComma | .strayAfterMember =>
      damaged .expectedValue

/-- A name as the only key of an object in a text, with null for its value. -/
def nameInText (entries : List (String × α)) (ending : Json.ObjectEnd) :
    List (Json.Readable String × Json.Document) → Except Error α
  | [] => nameFault entries ending
  | (.error fault, _) :: _ => damaged fault
  | (.ok name, document) :: rest => do
      let value ← namedOrUnknown entries name
      let _ ← (nothing .text document).mapError (.under (.member name))
      match rest, ending with
      | [], .closed => return value
      | [], .unfinished => damaged .endInObject
      | _, _ => damaged .expectedValue

/-- A name as the only key of an object in memory, with null for its value. -/
def nameInObject (entries : List (String × α)) (medium : Medium) :
    List (Json.Readable String × Json.Document) → Except Error α
  | [(.ok name, document)] => do
      let value ← namedOrUnknown entries name
      let _ ← (nothing medium document).mapError (.under (.member name))
      return value
  | _ => .error (.here (.invalidValue .map .singleMember))

/-- One of a fixed set of names. -/
def oneOf (entries : List (String × α)) : Decoder α := fun medium document =>
  match document, medium with
  | .text (.ok name), _ => namedOrUnknown entries name
  | .text (.error fault), _ => damaged fault
  | .brokenText fault _, _ => damaged fault
  | .object members ending tooDeep, .text =>
      if tooDeep then damaged .tooDeep else nameInText entries ending members
  | .object members _ _, medium => nameInObject entries medium members
  | .absent, _ => damaged .endInValue
  | _, .text => damaged .expectedValue
  | document, _ => mismatch .textOrMap document

/-- The tag of a union. In a buffer a tag may also be given by its number. -/
def tag (entries : List (String × α)) : Decoder α := fun medium document =>
  match document, medium with
  | .text (.ok name), _ => namedOrUnknown entries name
  | .number (.ok (.integer index)), .buffer =>
      if index < 0 then mismatch .variantName document
      else
        match entries[index.toNat]? with
        | some entry => .ok entry.2
        | none =>
            .error (.here (.invalidValue (.number (.integer index))
              (.variantIndex entries.length)))
  | document, _ => mismatch .variantName document

/-- The tag of an object and its other members, as they are written. -/
structure Untagged (α : Type) where
  tag : Option α
  others : List (String × Json)

/-- Takes the tag out of the members of an object. -/
def untag (tagName : String) (entries : List (String × α)) (medium : Medium)
    (members : Members) : (tag : Option α) → List (String × Json.Document) →
    Except Error (Untagged α)
  | found, [] =>
      match members.tail with
      | some error =>
          if found.isSome && members.keyOnly = some tagName then
            .error (.here (.duplicateField tagName))
          else .error error
      | none => .ok ⟨found, []⟩
  | found, (key, document) :: rest =>
      if key = tagName then
        match found with
        | some _ => .error (.here (.duplicateField tagName))
        | none => do
            let value ← (tag entries medium document).mapError (.under (.member key))
            untag tagName entries medium members (some value) rest
      else do
        let value ← (readValue document).mapError (.under (.member key))
        let untagged ← untag tagName entries medium members found rest
        return { untagged with others := (key, value) :: untagged.others }

/-- The name of the member that tells the variants of a union apart. -/
def tagName : String := "kind"

/-- A union told apart by its tag. In a list the tag comes first and the members of
the variant follow. -/
def union (name : String) (variants : List (String × Decoder α)) : Decoder α :=
  fun medium document =>
    match document with
    | .object members ending tooDeep =>
        if tooDeep then damaged .tooDeep
        else do
          let members := Members.of ending members
          let untagged ← untag tagName variants medium members none members.entries
          match untagged.tag with
          | some variant => decodeBuffer variant (.object untagged.others)
          | none => throw (.here (.missingField tagName))
    | .list items ending tooDeep =>
        if tooDeep then damaged .tooDeep
        else
          match items with
          | [] =>
              match ending.read? with
              | some fault => damaged fault
              | none => .error (.here (.missingField tagName))
          | first :: rest => do
              let variant ← (tag variants medium first).mapError (.under (.element 0))
              let others ← readItems ending 1 rest
              decodeBuffer variant (.list others)
    | document => mismatch (.union name) document

/-- Either of two readings of a buffered value. -/
def either (first second : Decoder α) : Decoder α := fun _ document => do
  let value ← readValue document
  match decodeBuffer first value with
  | .ok result => return result
  | .error firstError =>
      match decodeBuffer second value with
      | .ok result => return result
      | .error secondError => throw (.here (.neither firstError.cause secondError.cause))

/-- The first of several readings that accepts a buffered value. -/
def firstOf (name : String) (alternatives : List (Decoder α)) : Decoder α :=
  fun _ document => do
    let value ← readValue document
    match alternatives.findSome? fun decoder => (decodeBuffer decoder value).toOption with
    | some result => return result
    | none => throw (.here (.noAlternative name))

/-- The members of other names with their values, or the first damage in them. -/
def otherMembers (names : List String) : (place : Nat) → List (String × Json.Document) →
    PlacedResult (List (String × Json))
  | _, [] => .ok []
  | place, (key, document) :: rest =>
      if names.contains key then otherMembers names (place + 1) rest
      else
        match readValue document with
        | .error error => .error ⟨place, error.under (.member key)⟩
        | .ok value => (otherMembers names (place + 1) rest).map ((key, value) :: ·)

/-- An object that holds some fields of its own beside the members of another
value, which is read from the buffered rest. -/
def flattened (name : String) (fields : Fields σ (α → β)) (inner : Decoder α) : Decoder β :=
  fun medium document =>
    match document with
    | .object members ending tooDeep =>
        if tooDeep then damaged .tooDeep
        else do
          let members := Members.of ending members
          let tail := members.tail.map fun error => ⟨members.entries.length, error⟩
          let outcome := Fields.unlessEarlier
            (PlacedResult.both Prod.mk (fields.fromMembers medium members)
              (otherMembers fields.names 0 members.entries)) tail
          let (combine, others) ← outcome.mapError (·.error)
          let value ← decodeBuffer inner (.object others)
          return combine value
    | document => mismatch (.owned (.record name)) document

/-- A variant without members. Members that are there are ignored, but a list must not
hold any items. -/
def constant (value : α) : Decoder α := fun _ document =>
  match document with
  | .list (first :: rest) _ _ =>
      .error (.here (.invalidLength (first :: rest).length (.items 0)))
  | _ => .ok value

end Decoder

namespace Codec

/-- One of a fixed set of names. -/
def oneOf [DecidableEq α] (entries : List (String × α)) : Codec α where
  decode := Decoder.oneOf entries
  encode value :=
    match entries.find? fun entry => entry.2 = value with
    | some entry => .text entry.1
    | none => .null

end Codec

/-- An object with its tag in front of the members. -/
def tagged (tag : String) (members : List (String × Json)) : Json :=
  .object ((Decoder.tagName, .text tag) :: members)

end BatchAuction.Wire
