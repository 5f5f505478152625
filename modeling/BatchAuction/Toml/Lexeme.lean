import BatchAuction.Clock.Calendar
import BatchAuction.Hex
import BatchAuction.Toml.Value

/-!
# TOML lexemes

Blanks, comments, texts in their four kinds of quotes, and the numbers and points
in time that are written without quotes.
-/

set_option autoImplicit false

namespace BatchAuction.Toml

/-- Reads a part of a document and leaves what follows it. -/
abbrev Reader := StateT (List Char) Option

def isSpace (c : Char) : Bool := c = ' ' || c = '\t'

/-- A character that may stand in a comment. -/
def isCommentChar (c : Char) : Bool := c = '\t' || (32 ≤ c.toNat && c.toNat ≠ 127)

def skipSpaces : Reader Unit := modify fun cs => cs.dropWhile isSpace

/-- Passes over spaces, line ends and whole comments. -/
def skipLines : (inComment : Bool) → List Char → Option (List Char)
  | _, '\n' :: rest => skipLines false rest
  | _, '\r' :: '\n' :: rest => skipLines false rest
  | true, [] => none
  | true, c :: rest => if isCommentChar c then skipLines true rest else none
  | false, '#' :: rest => skipLines true rest
  | false, ' ' :: rest => skipLines false rest
  | false, '\t' :: rest => skipLines false rest
  | false, cs => some cs

/-- Passes over the rest of a line: spaces, perhaps a comment, and the line end or
the end of the document. -/
def skipLineEnd : Reader Unit := fun cs =>
  let cs := cs.dropWhile isSpace
  let cs := match cs with
    | '#' :: rest => rest.dropWhile isCommentChar
    | cs => cs
  match cs with
  | [] => some ((), [])
  | '\n' :: rest => some ((), rest)
  | '\r' :: '\n' :: rest => some ((), rest)
  | _ => none

def mark (c : Char) : Reader Unit := fun cs =>
  match cs with
  | d :: rest => if d = c then some ((), rest) else none
  | [] => none

/-- The character of a code point, if there is one. -/
def charOf? (point : Nat) : Option Char :=
  if point.isValidChar then some (Char.ofNat point) else none

/-- The number that hex digits denote. -/
def hexNumber? (digits : List Char) : Option Nat :=
  digits.foldlM (fun value digit => (Hex.digitValue? digit).map (value * 16 + ·)) 0

/-- The character of an escape of one letter. -/
def simpleEscape? (c : Char) : Option Char :=
  if c = 'b' then some '\x08'
  else if c = 't' then some '\t'
  else if c = 'n' then some '\n'
  else if c = 'f' then some '\x0c'
  else if c = 'r' then some '\r'
  else if c = '"' then some '"'
  else if c = '\\' then some '\\'
  else none

/-- A character that stands for itself in a text. -/
def isTextChar (c : Char) : Bool := isCommentChar c

/-- A character in front of the text that a reader yields. -/
def withChar (c : Char) : Option (List Char × List Char) → Option (List Char × List Char) :=
  Option.map fun (text, rest) => (c :: text, rest)

/-- The rest of a text in double quotes on one line. -/
def basicText : List Char → Option (List Char × List Char)
  | '"' :: rest => some ([], rest)
  | '\\' :: 'u' :: a :: b :: c :: d :: rest => do
      withChar (← charOf? (← hexNumber? [a, b, c, d])) (basicText rest)
  | '\\' :: 'U' :: a :: b :: c :: d :: e :: f :: g :: h :: rest => do
      withChar (← charOf? (← hexNumber? [a, b, c, d, e, f, g, h])) (basicText rest)
  | '\\' :: c :: rest => do withChar (← simpleEscape? c) (basicText rest)
  | c :: rest => if isTextChar c then withChar c (basicText rest) else none
  | [] => none

/-- The rest of a text in single quotes on one line. -/
def literalText : List Char → Option (List Char × List Char)
  | '\x27' :: rest => some ([], rest)
  | c :: rest => if isTextChar c then withChar c (literalText rest) else none
  | [] => none

/-- What remains when a text of several lines may be over: `run` quotes in a row
have been read. Three of them end the text; one or two more belong to it. -/
def closed? (quote : Char) (run : Nat) : Option (List Char) :=
  if 3 ≤ run && run ≤ 5 then some (List.replicate (run - 3) quote) else none

/-- The quotes in front of what a reader yields. -/
def withQuotes (quote : Char) (run : Nat) :
    Option (List Char × List Char) → Option (List Char × List Char) :=
  Option.map fun (text, rest) => (List.replicate run quote ++ text, rest)

/-- Where a reader of several lines is: after some quotes in a row, or after a
backslash that joins lines, which may still lack its line end. -/
inductive LinesPlace where
  | quotes (run : Nat)
  | joining (lineEnded : Bool)
deriving DecidableEq, Repr

/-- The rest of a text in three single quotes. -/
def literalLines : (run : Nat) → List Char → Option (List Char × List Char)
  | run, '\x27' :: rest => literalLines (run + 1) rest
  | run, cs =>
      if 3 ≤ run then (closed? '\x27' run).map fun text => (text, cs)
      else withQuotes '\x27' run <|
        match cs with
        | '\r' :: '\n' :: rest => withChar '\n' (literalLines 0 rest)
        | '\n' :: rest => withChar '\n' (literalLines 0 rest)
        | c :: rest => if isTextChar c then withChar c (literalLines 0 rest) else none
        | [] => none

/-- The rest of a text in three double quotes. A backslash at the end of a line
joins it with the next line that is not blank. -/
def basicLines : LinesPlace → List Char → Option (List Char × List Char)
  | .quotes run, '"' :: rest => basicLines (.quotes (run + 1)) rest
  | .quotes run, cs =>
      if 3 ≤ run then (closed? '"' run).map fun text => (text, cs)
      else withQuotes '"' run <|
        match cs with
        | '\\' :: 'u' :: a :: b :: c :: d :: rest => do
            withChar (← charOf? (← hexNumber? [a, b, c, d])) (basicLines (.quotes 0) rest)
        | '\\' :: 'U' :: a :: b :: c :: d :: e :: f :: g :: h :: rest => do
            withChar (← charOf? (← hexNumber? [a, b, c, d, e, f, g, h]))
              (basicLines (.quotes 0) rest)
        | '\\' :: c :: rest =>
            match simpleEscape? c with
            | some escaped => withChar escaped (basicLines (.quotes 0) rest)
            | none =>
                if c = '\n' then basicLines (.joining true) rest
                else if isSpace c || c = '\r' then basicLines (.joining false) (c :: rest)
                else none
        | '\r' :: '\n' :: rest => withChar '\n' (basicLines (.quotes 0) rest)
        | '\n' :: rest => withChar '\n' (basicLines (.quotes 0) rest)
        | c :: rest => if isTextChar c then withChar c (basicLines (.quotes 0) rest) else none
        | [] => none
  | .joining _, '\n' :: rest => basicLines (.joining true) rest
  | .joining _, '\r' :: '\n' :: rest => basicLines (.joining true) rest
  | .joining ended, c :: rest =>
      if isSpace c then basicLines (.joining ended) rest
      else if ended then basicLines (.quotes 0) (c :: rest)
      else none
  | .joining _, [] => none

end BatchAuction.Toml
