import BatchAuction.Json.Number

/-!
# JSON values

A value keeps the members of its objects in the order and with the repetitions
they were written in. The sorted form keeps one member per key, the last one
written, in the order of the keys; it is what a value means to a reader that
looks members up.
-/

set_option autoImplicit false

namespace BatchAuction

inductive Json where
  | null
  | boolean (value : Bool)
  | number (value : Json.Number)
  | text (value : String)
  | list (items : List Json)
  | object (members : List (String × Json))

namespace Json

instance : Inhabited Json := ⟨.null⟩

def integer (value : Int) : Json := .number (.integer value)

def natural (value : Nat) : Json := .number (.integer value)

/-- Puts a member in its place among sorted ones; a member of the same key gives
way. -/
def insertMember (key : String) (value : Json) :
    List (String × Json) → List (String × Json)
  | [] => [(key, value)]
  | (other, held) :: rest =>
      if key < other then (key, value) :: (other, held) :: rest
      else if key = other then (key, value) :: rest
      else (other, held) :: insertMember key value rest

/-- Sorts members by key; of a repeated key the last member stays. -/
def sortMembers (members : List (String × Json)) : List (String × Json) :=
  members.foldl (fun sorted member => insertMember member.1 member.2 sorted) []

mutual

/-- The sorted form of a value. -/
def sorted : Json → Json
  | .null => .null
  | .boolean value => .boolean value
  | .number value => .number value
  | .text value => .text value
  | .list items => .list (sortedItems items)
  | .object members => .object (sortMembers (sortedMembers members))

/-- The sorted forms of list items. -/
def sortedItems : List Json → List Json
  | [] => []
  | item :: rest => sorted item :: sortedItems rest

def sortedMembers : List (String × Json) → List (String × Json)
  | [] => []
  | (key, value) :: rest => (key, sorted value) :: sortedMembers rest

end

/-- The last member of a key. -/
def lookup? (members : List (String × Json)) (key : String) : Option Json :=
  (members.reverse.find? fun member => member.1 = key).map (·.2)

/-- The member of an object; nothing of any other value. -/
def member? (value : Json) (key : String) : Option Json :=
  match value with
  | .object members => lookup? members key
  | _ => none

/-- The text, if the value is one. -/
def asText? : Json → Option String
  | .text value => some value
  | _ => none

/-- The integer, if the value is one. -/
def asInteger? : Json → Option Int
  | .number (.integer value) => some value
  | _ => none

/-- The items, if the value is a list. -/
def asList? : Json → Option (List Json)
  | .list items => some items
  | _ => none

end Json

end BatchAuction
