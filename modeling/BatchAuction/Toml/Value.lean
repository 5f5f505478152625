/-!
# TOML values

The tree of a TOML document. Of values that are neither texts, integers, lists nor
tables only their presence is kept.
-/

set_option autoImplicit false

namespace BatchAuction.Toml

/-- How a table came to be, which decides what may still be added to it. -/
inductive Origin where
  /-- Written between braces; it is complete. -/
  | inlined
  /-- Named by a header. -/
  | header
  /-- Passed through by the path of a header. -/
  | passed
  /-- Passed through by a dotted key. -/
  | dotted
deriving DecidableEq, Repr

inductive Value where
  | text (value : String)
  | integer (value : Int)
  /-- A boolean, a real number or a point in time. -/
  | scalar
  | list (items : List Value)
  | table (origin : Origin) (entries : List (String × Value))
  /-- Tables under one repeated header, the last one first. -/
  | tables (last : List (String × Value)) (earlier : List (List (String × Value)))

abbrev Entries := List (String × Value)

def Entries.get? (entries : Entries) (key : String) : Option Value :=
  (entries.find? fun entry => entry.1 = key).map (·.2)

/-- The entries with the value of a key replaced, or added at the end. -/
def Entries.set (key : String) (value : Value) : Entries → Entries
  | [] => [(key, value)]
  | (other, held) :: rest =>
      if other = key then (key, value) :: rest else (other, held) :: Entries.set key value rest

/-- A table and how it came to be. -/
structure Table where
  origin : Origin
  entries : Entries

def Table.root : Table := ⟨.header, []⟩

namespace Table

/-- Changes the table at the end of a path. Missing tables on the way are made, as
passed through by a dotted key or by a header. A dotted key does not lead into a
table that a header has named, and nothing leads into an inlined table. -/
def update (dotted : Bool) (change : Table → Option Table) : List String → Table → Option Table
  | [], table => change table
  | key :: path, table =>
      match table.entries.get? key with
      | none => do
          let made ← update dotted change path ⟨if dotted then .dotted else .passed, []⟩
          return ⟨table.origin, table.entries.set key (.table made.origin made.entries)⟩
      | some (.table origin entries) =>
          if origin = .inlined || (dotted && origin = .header) then none
          else do
            let changed ← update dotted change path ⟨origin, entries⟩
            return ⟨table.origin, table.entries.set key (.table changed.origin changed.entries)⟩
      | some (.tables last earlier) => do
          let changed ← update dotted change path ⟨.header, last⟩
          return ⟨table.origin, table.entries.set key (.tables changed.entries earlier)⟩
      | some _ => none

/-- Adds an entry under a dotted key. The table that takes it must have come to be
by dotted keys, too, unless the key has only one part. -/
def assign (path : List String) (key : String) (value : Value) : Table → Option Table :=
  update true
    (fun table =>
      if (table.origin = .dotted) == path.isEmpty || (table.entries.get? key).isSome then none
      else some ⟨table.origin, table.entries.set key value⟩)
    path

/-- Opens the table of a header. Only a table that a header has passed through may
be there already. -/
def openTable (path : List String) (key : String) : Table → Option Table :=
  update false
    (fun table =>
      match table.entries.get? key with
      | none => some ⟨table.origin, table.entries.set key (.table .header [])⟩
      | some (.table .passed entries) =>
          some ⟨table.origin, table.entries.set key (.table .header entries)⟩
      | some _ => none)
    path

/-- Opens one more table of a repeated header. -/
def openRepeated (path : List String) (key : String) : Table → Option Table :=
  update false
    (fun table =>
      match table.entries.get? key with
      | none => some ⟨table.origin, table.entries.set key (.tables [] [])⟩
      | some (.tables last earlier) =>
          some ⟨table.origin, table.entries.set key (.tables [] (last :: earlier))⟩
      | some _ => none)
    path

end Table

end BatchAuction.Toml
