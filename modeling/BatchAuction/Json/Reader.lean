import BatchAuction.Json.Document
import BatchAuction.Json.Token

/-!
# From text to documents

The tokens of a text are taken one by one with a stack of the containers that are
still open. A text that breaks off closes all of them where it stands, so every
text spells a document.
-/

set_option autoImplicit false

namespace BatchAuction.Json

/-- A container that waits for the value being read. What it has got so far is
held in reverse. -/
inductive Frame where
  | list (items : List Document)
  | object (members : List (Readable String × Document)) (key : Readable String)

/-- What may come next in the innermost open container. -/
inductive Stage where
  | value
  | firstItem
  | leadingComma
  | nextItem (items : List Document)
  | afterItem (items : List Document)
  | firstKey
  | nextKey (members : List (Readable String × Document))
  | afterKey (members : List (Readable String × Document)) (key : Readable String)
  | afterMember (members : List (Readable String × Document))

/-- What one token leads to. -/
inductive Progress where
  | more (stack : List Frame) (stage : Stage)
  | complete (document : Document)
  | damaged (document : Document)

/-- The number of containers a reader may be inside of at once. -/
def maxDepth : Nat := 127

/-- A list that is inside of the given containers. -/
def listInside (stack : List Frame) (items : List Document) (ending : ListEnd) : Document :=
  .list items.reverse ending (maxDepth ≤ stack.length)

/-- An object that is inside of the given containers. -/
def objectInside (stack : List Frame) (members : List (Readable String × Document))
    (ending : ObjectEnd) : Document :=
  .object members.reverse ending (maxDepth ≤ stack.length)

/-- Ends every open container after the damaged document it waits for. -/
def unwind : List Frame → Document → Document
  | [], damaged => damaged
  | .list items :: stack, damaged =>
      unwind stack (listInside stack (damaged :: items) .unfinished)
  | .object members key :: stack, damaged =>
      unwind stack (objectInside stack ((key, damaged) :: members) .unfinished)

/-- Hands a finished value to the container that waits for it. -/
def settle : List Frame → Document → Progress
  | [], document => .complete document
  | .list items :: stack, document => .more stack (.afterItem (document :: items))
  | .object members key :: stack, document =>
      .more stack (.afterMember ((key, document) :: members))

/-- Damage at the place where a value is due. -/
def damagedValue (stack : List Frame) (damage : Document) : Progress :=
  .damaged (unwind stack damage)

/-- A list whose end is damaged. -/
def damagedList (stack : List Frame) (items : List Document) (ending : ListEnd) : Progress :=
  .damaged (unwind stack (listInside stack items ending))

/-- An object whose end is damaged. -/
def damagedObject (stack : List Frame) (members : List (Readable String × Document))
    (ending : ObjectEnd) : Progress :=
  .damaged (unwind stack (objectInside stack members ending))

/-- A token where a value is due. -/
def takeValue (stack : List Frame) : Token → Progress
  | .null => settle stack .null
  | .boolean value => settle stack (.boolean value)
  | .number value => settle stack (.number value)
  | .text value => settle stack (.text value)
  | .listOpen => .more stack .firstItem
  | .objectOpen => .more stack .firstKey
  | .listClose | .objectClose | .comma | .colon =>
      damagedValue stack (.broken .expectedValue .expectedValue)
  | .brokenText read skipped => damagedValue stack (.brokenText read skipped)
  | .broken read skipped => damagedValue stack (.broken read skipped)

/-- What a token is called where a key is due. -/
def Token.found : Token → Readable Found
  | .null => .ok .null
  | .boolean value => .ok (.boolean value)
  | .number value => value.map .number
  | .text value => value.map .text
  | .listOpen => .ok .sequence
  | .objectOpen => .ok .map
  | .listClose | .objectClose | .comma | .colon => .error .expectedValue
  | .brokenText read _ | .broken read _ => .error read

/-- A token where a key is due. -/
def takeKey (stack : List Frame) (members : List (Readable String × Document)) :
    Token → Progress
  | .text key => .more stack (.afterKey members key)
  | .brokenText read skipped => damagedObject stack members (.brokenKey read skipped)
  | token => damagedObject stack members (.strayKey token.found)

def step (stack : List Frame) (stage : Stage) (token : Token) : Progress :=
  match stage with
  | .value => takeValue stack token
  | .firstItem =>
      match token with
      | .listClose => settle stack (listInside stack [] .closed)
      | .comma => .more stack .leadingComma
      | token => takeValue (.list [] :: stack) token
  | .leadingComma =>
      damagedValue (.list [] :: stack) (.leadingComma (token matches .listClose))
  | .nextItem items =>
      match token with
      | .listClose => damagedList stack items .trailingComma
      | token => takeValue (.list items :: stack) token
  | .afterItem items =>
      match token with
      | .comma => .more stack (.nextItem items)
      | .listClose => settle stack (listInside stack items .closed)
      | _ => damagedList stack items .strayAfterItem
  | .firstKey =>
      match token with
      | .objectClose => settle stack (objectInside stack [] .closed)
      | token => takeKey stack [] token
  | .nextKey members =>
      match token with
      | .objectClose => damagedObject stack members .trailingComma
      | token => takeKey stack members token
  | .afterKey members key =>
      match token with
      | .colon => .more (.object members key :: stack) .value
      | _ => damagedObject stack members (.missingColon key false)
  | .afterMember members =>
      match token with
      | .comma => .more stack (.nextKey members)
      | .objectClose => settle stack (objectInside stack members .closed)
      | _ => damagedObject stack members .strayAfterMember

/-- The innermost open container where the text ends inside of it. -/
def cutOff (stack : List Frame) : Stage → Document
  | .value => .absent
  | .firstItem => listInside stack [] .unfinished
  | .leadingComma => listInside stack [.leadingComma false] .unfinished
  | .nextItem items => listInside stack items .unfinishedAfterComma
  | .afterItem items => listInside stack items .unfinished
  | .firstKey => objectInside stack [] .unfinished
  | .nextKey members => objectInside stack members .unfinishedAfterComma
  | .afterKey members key => objectInside stack members (.missingColon key true)
  | .afterMember members => objectInside stack members .unfinished

/-- A document and whether more than blanks follow it. -/
structure Reading where
  document : Document
  trailing : Bool

/-- Takes tokens up to the end of the outermost value. -/
def run (stack : List Frame) (stage : Stage) : List Token → Reading
  | [] => ⟨unwind stack (cutOff stack stage), false⟩
  | token :: rest =>
      match step stack stage token with
      | .more stack stage => run stack stage rest
      | .complete document => ⟨document, !rest.isEmpty⟩
      | .damaged document => ⟨document, false⟩

/-- The document that a text spells. -/
def read (bytes : List UInt8) : Reading := run [] .value (tokens bytes)

end BatchAuction.Json
