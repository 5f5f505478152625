import BatchAuction.Json.Value

/-!
# Documents

A document is the tree that a text spells, up to the place where the text stops
making sense. The damage stays in the tree: a decoder that walks the tree in the
order of the text meets it only if it gets there, and it names it by what it was
doing, reading the value or passing over it. A value already held in memory is a
document without damage.
-/

set_option autoImplicit false

namespace BatchAuction.Json

/-- What a decoder finds where it wants something else. -/
inductive Found where
  | null
  | boolean (value : Bool)
  | number (value : Number)
  | text (value : String)
  | sequence
  | map
deriving DecidableEq, Repr

/-- How a list ends. All but the first are damage. -/
inductive ListEnd where
  | closed
  | unfinished
  | unfinishedAfterComma
  | trailingComma
  | strayAfterItem
deriving DecidableEq, Repr

/-- How an object ends. All but the first are damage. -/
inductive ObjectEnd where
  | closed
  | unfinished
  | unfinishedAfterComma
  | trailingComma
  | strayAfterMember
  /-- Something other than a text stands where a key is due. -/
  | strayKey (found : Readable Found)
  /-- A key breaks off. -/
  | brokenKey (read skipped : Fault)
  /-- A key has no colon after it. -/
  | missingColon (key : Readable String) (atEnd : Bool)

/-- The tree that a text spells. A container nested too deep can be passed over
but not read. -/
inductive Document where
  | null
  | boolean (value : Bool)
  | number (value : Readable Number)
  | text (value : Readable String)
  | list (items : List Document) (ending : ListEnd) (tooDeep : Bool)
  | object (members : List (Readable String × Document)) (ending : ObjectEnd) (tooDeep : Bool)
  /-- The text ends before the value begins. -/
  | absent
  /-- A text breaks off. -/
  | brokenText (read skipped : Fault)
  /-- A comma stands in front of the first item of a list, which may end there. -/
  | leadingComma (listEnds : Bool)
  /-- Something stands here that is no value. -/
  | broken (read skipped : Fault)

instance : Inhabited Document := ⟨.null⟩

/-- What a reader of all items says at the end of a list. -/
def ListEnd.read? : ListEnd → Option Fault
  | .closed => none
  | .unfinished => some .endInList
  | .unfinishedAfterComma => some .endInValue
  | .trailingComma => some .trailingComma
  | .strayAfterItem => some .expectedListCommaOrEnd

/-- What a reader that passes over a list says at its end. -/
def ListEnd.skipped? : ListEnd → Option Fault
  | .closed => none
  | .unfinished => some .endInList
  | .unfinishedAfterComma => some .endInValue
  | .trailingComma => some .expectedValue
  | .strayAfterItem => some .expectedListCommaOrEnd

/-- What a reader that wants no more items says at the end of a list. -/
def ListEnd.full? : ListEnd → Option Fault
  | .closed => none
  | .unfinished => some .endInList
  | .unfinishedAfterComma => some .trailingCharacters
  | .trailingComma => some .trailingComma
  | .strayAfterItem => some .trailingCharacters

/-- What a key without a colon is called. -/
def missingColonFault (atEnd : Bool) : Fault := if atEnd then .endInObject else .expectedColon

/-- What a reader of all members says at the end of an object. -/
def ObjectEnd.read? : ObjectEnd → Option Fault
  | .closed => none
  | .unfinished => some .endInObject
  | .unfinishedAfterComma => some .endInValue
  | .trailingComma => some .trailingComma
  | .strayAfterMember => some .expectedObjectCommaOrEnd
  | .strayKey _ => some .keyNotText
  | .brokenKey read _ => some read
  | .missingColon (.error fault) _ => some fault
  | .missingColon (.ok _) atEnd => some (missingColonFault atEnd)

/-- What a reader that passes over an object says at its end. -/
def ObjectEnd.skipped? : ObjectEnd → Option Fault
  | .closed => none
  | .unfinished | .unfinishedAfterComma => some .endInObject
  | .trailingComma => some .keyNotText
  | .strayAfterMember => some .expectedObjectCommaOrEnd
  | .strayKey _ => some .keyNotText
  | .brokenKey _ skipped => some skipped
  | .missingColon _ atEnd => some (missingColonFault atEnd)

namespace Document

/-- What an error message calls this document, or the fault met on looking. -/
def found : Document → Readable Found
  | .null => .ok .null
  | .boolean value => .ok (.boolean value)
  | .number value => value.map .number
  | .text value => value.map .text
  | .list _ _ _ => .ok .sequence
  | .object _ _ _ => .ok .map
  | .absent => .error .endInValue
  | .leadingComma _ => .error .expectedValue
  | .brokenText read _ | .broken read _ => .error read

mutual

/-- The first damage that a reader meets who passes over the document. -/
def skip? : Document → Option Fault
  | .null | .boolean _ | .number _ | .text _ => none
  | .list items ending _ => (skipItems? items).or ending.skipped?
  | .object members ending _ => (skipMembers? members).or ending.skipped?
  | .absent => some .endInValue
  | .leadingComma _ => some .expectedValue
  | .brokenText _ skipped | .broken _ skipped => some skipped

/-- The first damage in a list of documents. -/
def skipItems? : List Document → Option Fault
  | [] => none
  | item :: rest => (skip? item).or (skipItems? rest)

/-- The first damage in members; keys are passed over unread. -/
def skipMembers? : List (Readable String × Document) → Option Fault
  | [] => none
  | (_, value) :: rest => (skip? value).or (skipMembers? rest)

end

end Document

mutual

/-- A value held in memory as a document. -/
def toDocument : Json → Document
  | .null => .null
  | .boolean value => .boolean value
  | .number value => .number (.ok value)
  | .text value => .text (.ok value)
  | .list items => .list (itemDocuments items) .closed false
  | .object members => .object (memberDocuments members) .closed false

def itemDocuments : List Json → List Document
  | [] => []
  | item :: rest => toDocument item :: itemDocuments rest

def memberDocuments : List (String × Json) → List (Readable String × Document)
  | [] => []
  | (key, value) :: rest => (.ok key, toDocument value) :: memberDocuments rest

end

end BatchAuction.Json
