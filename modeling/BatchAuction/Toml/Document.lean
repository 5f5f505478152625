import BatchAuction.Toml.Scalar

/-!
# TOML documents

A document is a sequence of lines: entries, headers and comments. Its table is what
remains when every line has been taken in order.
-/

set_option autoImplicit false

namespace BatchAuction.Toml

/-- A text in any kind of quotes. A line end right after three quotes is left out. -/
def quotedText : Reader String := fun cs =>
  let found := match cs with
    | '"' :: '"' :: '"' :: '\n' :: rest => basicLines (.quotes 0) rest
    | '"' :: '"' :: '"' :: '\r' :: '\n' :: rest => basicLines (.quotes 0) rest
    | '"' :: '"' :: '"' :: rest => basicLines (.quotes 0) rest
    | '"' :: rest => basicText rest
    | '\x27' :: '\x27' :: '\x27' :: '\n' :: rest => literalLines 0 rest
    | '\x27' :: '\x27' :: '\x27' :: '\r' :: '\n' :: rest => literalLines 0 rest
    | '\x27' :: '\x27' :: '\x27' :: rest => literalLines 0 rest
    | '\x27' :: rest => literalText rest
    | _ => none
  found.map fun (text, rest) => (String.ofList text, rest)

/-- A character of a key without quotes. -/
def isKeyChar (c : Char) : Bool := c.isAlphanum || c = '_' || c = '-'

def keyPart : Reader String := fun cs =>
  match cs with
  | '"' :: rest => (basicText rest).map fun (text, rest) => (String.ofList text, rest)
  | '\x27' :: rest => (literalText rest).map fun (text, rest) => (String.ofList text, rest)
  | cs =>
      let (name, rest) := cs.span isKeyChar
      if name.isEmpty then none else some (String.ofList name, rest)

/-- Reads one thing or more with a mark between each two. A reader that passes over
nothing cannot go on. -/
def separated {α : Type} (separator : Char) (read : Reader α) (cs : List Char) :
    Option (List α × List Char) :=
  match read cs with
  | none => none
  | some (first, rest) =>
      match rest with
      | c :: rest =>
          if c ≠ separator then some ([first], c :: rest)
          else if _ : rest.length < cs.length then
            (separated separator read rest).map fun (others, rest) => (first :: others, rest)
          else none
      | [] => some ([first], [])
termination_by cs.length

/-- The number of levels that lists and tables may be nested, and of the parts that a
key may have. -/
def levelLimit : Nat := 79

/-- A key: its parts but the last one, and the last one. -/
def key : Reader (List String × String) := do
  let parts ← separated '.' (do skipSpaces; let part ← keyPart; skipSpaces; pure part)
  if levelLimit < parts.length then failure
  match parts.getLast? with
  | some last => return (parts.dropLast, last)
  | none => failure

structure Assignment where
  path : List String
  key : String
  value : Value

/-- A key and its value on one line. -/
def assignment (value : Reader Value) : Reader Assignment := do
  let (path, last) ← key
  mark '='
  skipSpaces
  let value ← value
  return ⟨path, last, value⟩

/-- The items of a list after its bracket. A comma may follow the last item. -/
def items (item : Reader Value) (cs : List Char) : Option (List Value × List Char) :=
  match skipLines false cs with
  | none => none
  | some (']' :: rest) => some ([], rest)
  | some start =>
      match item start with
      | none => none
      | some (value, rest) =>
          match skipLines false rest with
          | some (']' :: rest) => some ([value], rest)
          | some (',' :: rest) =>
              if _ : rest.length < cs.length then
                (items item rest).map fun (values, rest) => (value :: values, rest)
              else none
          | _ => none
termination_by cs.length

/-- The table of the entries between braces. -/
def inlined (assignments : List Assignment) : Option Value := do
  let table ← assignments.foldlM
    (fun table entry => table.assign entry.path entry.key entry.value) (⟨.inlined, []⟩ : Table)
  return .table .inlined table.entries

/-- The entries of a table after its brace. -/
def braced (value : Reader Value) : Reader Value := do
  skipSpaces
  match ← get with
  | '\x7d' :: rest =>
      set rest
      return .table .inlined []
  | _ =>
      let assignments ← separated ',' (do
        let entry ← assignment value
        skipSpaces
        pure entry)
      mark '\x7d'
      inlined assignments

/-- A value within so many levels of lists and tables. -/
def value : (levels : Nat) → Reader Value
  | levels, cs =>
      match cs, levels with
      | '[' :: rest, levels + 1 => (items (value levels) rest).map fun (items, rest) =>
          (.list items, rest)
      | '\x7b' :: rest, levels + 1 => braced (value levels) rest
      | '"' :: _, _ | '\x27' :: _, _ => (quotedText cs).map fun (text, rest) => (.text text, rest)
      | _, _ => scalar cs

inductive Line where
  | entry (assignment : Assignment)
  | header (path : List String) (key : String)
  | repeatedHeader (path : List String) (key : String)

/-- A line that says something, up to its end. -/
def line : Reader Line := do
  let line ← match ← get with
    | '[' :: '[' :: rest => do
        set rest
        let (path, last) ← key
        mark ']'
        mark ']'
        pure (.repeatedHeader path last)
    | '[' :: rest => do
        set rest
        let (path, last) ← key
        mark ']'
        pure (.header path last)
    | _ => do
        let entry ← assignment (value levelLimit)
        pure (.entry entry)
  skipLineEnd
  return line

/-- The lines of a document that say something. -/
def lines (cs : List Char) : Option (List Line) :=
  match cs.dropWhile isSpace with
  | [] => some []
  | c :: rest =>
      if c = '#' || c = '\n' || c = '\r' then
        match skipLineEnd (c :: rest) with
        | some ((), rest) =>
            if _ : rest.length < cs.length then lines rest else none
        | none => none
      else
        match line (c :: rest) with
        | some (found, rest) =>
            if _ : rest.length < cs.length then (lines rest).map (found :: ·) else none
        | none => none
termination_by cs.length

/-- Takes lines in order. Entries belong to the table of the last header. -/
def takeLines : (opened : List String) → Table → List Line → Option Table
  | _, table, [] => some table
  | opened, table, .entry entry :: rest => do
      let table ← table.update false (Table.assign entry.path entry.key entry.value) opened
      takeLines opened table rest
  | _, table, .header path last :: rest => do
      takeLines (path ++ [last]) (← table.openTable path last) rest
  | _, table, .repeatedHeader path last :: rest => do
      takeLines (path ++ [last]) (← table.openRepeated path last) rest

/-- The entries of a document. A byte order mark may stand at its front. -/
def parse (s : String) : Option Entries := do
  let cs := match s.toList with
    | '\ufeff' :: rest => rest
    | cs => cs
  let table ← takeLines [] .root (← lines cs)
  return table.entries

end BatchAuction.Toml
