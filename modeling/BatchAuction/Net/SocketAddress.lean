import BatchAuction.Bytes
import BatchAuction.Hex

/-!
# Socket addresses

The address of a host and a port. An address of eight groups is written with its
longest run of zero groups left out, and its host in brackets.
-/

set_option autoImplicit false

namespace BatchAuction.Net

inductive Host where
  | four (bytes : FixedBytes 4)
  /-- Eight groups of two bytes, and the number of a local scope or zero. -/
  | eight (groups : List Nat) (scope : Nat)
deriving DecidableEq

/-- The address of a host and a port. -/
structure SocketAddress where
  host : Host
  port : UInt16
deriving DecidableEq

namespace SocketAddress

/-- What follows a mark. -/
def after? (c : Char) : List Char → Option (List Char)
  | d :: rest => if d = c then some rest else none
  | [] => none

/-- Whether a character is a digit of a base. -/
def isDigitOf (base : Nat) (c : Char) : Bool := (Hex.digitValue? c).any (· < base)

/-- The number that digits of a base denote. -/
def numberOf (base : Nat) (digits : List Char) : Nat :=
  digits.foldl (fun value digit => value * base + (Hex.digitValue? digit).getD 0) 0

/-- A number below a limit of all digits that are there, and the rest. A zero in
front of other digits is refused unless it is `padded`. -/
def number? (base width limit : Nat) (padded : Bool) (cs : List Char) :
    Option (Nat × List Char) :=
  let (digits, rest) := cs.span (isDigitOf base)
  if digits.isEmpty || width < digits.length then none
  else if !padded && 1 < digits.length && digits.head? = some '0' then none
  else if numberOf base digits < limit then some (numberOf base digits, rest)
  else none

/-- One byte of a host of four bytes. -/
def byte? (cs : List Char) : Option (Nat × List Char) := number? 10 3 256 false cs

/-- A host of four bytes, as a number. -/
def fourBytes? (cs : List Char) : Option (Nat × List Char) := do
  let (a, cs) ← byte? cs
  let (b, cs) ← byte? (← after? '.' cs)
  let (c, cs) ← byte? (← after? '.' cs)
  let (d, cs) ← byte? (← after? '.' cs)
  return (((a * 256 + b) * 256 + c) * 256 + d, cs)

/-- Groups as far as they go, whether the last two were written as four bytes, and
the rest. -/
def groups : (left : Nat) → (first : Bool) → List Char → List Nat × Bool × List Char
  | 0, _, cs => ([], false, cs)
  | left + 1, first, cs =>
      let start := if first then some cs else after? ':' cs
      match if left = 0 then none else start.bind fourBytes? with
      | some (value, rest) => ([value / 65536, value % 65536], true, rest)
      | none =>
          match start.bind (number? 16 4 65536 true) with
          | none => ([], false, cs)
          | some (group, rest) =>
              let (others, bytewise, rest) := groups left false rest
              (group :: others, bytewise, rest)

/-- Eight groups. Two colons stand for groups of zero, at least one, and may not
follow groups that are written as bytes. -/
def eightGroups? (cs : List Char) : Option (List Nat × List Char) := do
  let (leading, bytewise, rest) := groups 8 true cs
  if leading.length = 8 then return (leading, rest)
  if bytewise then failure
  let rest ← after? ':' (← after? ':' rest)
  let (trailing, _, rest) := groups (7 - leading.length) true rest
  let zeros := List.replicate (8 - leading.length - trailing.length) 0
  return (leading ++ zeros ++ trailing, rest)

/-- The port at the end of a text. -/
def port? (cs : List Char) : Option UInt16 := do
  let cs ← after? ':' cs
  let (port, rest) ← number? 10 cs.length 65536 true cs
  if rest.isEmpty then some (UInt16.ofNat port) else none

/-- An address whose host has four bytes. -/
def ofFour? (cs : List Char) : Option SocketAddress := do
  let (value, rest) ← fourBytes? cs
  return ⟨.four (FixedBytes.ofNat 4 value), ← port? rest⟩

/-- An address whose host has eight groups. -/
def ofEight? (cs : List Char) : Option SocketAddress := do
  let (groups, rest) ← eightGroups? (← after? '[' cs)
  let (scope, rest) ← match rest with
    | '%' :: rest => number? 10 rest.length UInt32.size true rest
    | rest => some (0, rest)
  return ⟨.eight groups scope, ← port? (← after? ']' rest)⟩

def parse? (s : String) : Option SocketAddress := ofFour? s.toList <|> ofEight? s.toList

def printFour (value : Nat) : String :=
  ".".intercalate ([value / 16777216, value / 65536 % 256, value / 256 % 256, value % 256].map
    Decimal.print)

/-- The number of zero groups at the front. -/
def zerosInFront (groups : List Nat) : Nat := (groups.takeWhile (· = 0)).length

/-- The longest run of zero groups, the first of several, as its start and its
length. -/
def longestZeros (groups : List Nat) : Nat × Nat :=
  (List.range groups.length).foldl
    (fun best start =>
      let length := zerosInFront (groups.drop start)
      if best.2 < length then (start, length) else best)
    (0, 0)

def printGroups (groups : List Nat) : String :=
  ":".intercalate (groups.map fun group => String.ofList (Text.hexDigits group))

/-- The text of eight groups. Groups that hold four bytes show them as such. -/
def printEight (groups : List Nat) : String :=
  match groups with
  | [0, 0, 0, 0, 0, 65535, high, low] => "::ffff:" ++ printFour (high * 65536 + low)
  | groups =>
      let (start, length) := longestZeros groups
      if 1 < length then
        printGroups (groups.take start) ++ "::" ++ printGroups (groups.drop (start + length))
      else printGroups groups

def Host.print : Host → String
  | .four bytes => printFour bytes.toNat
  | .eight groups scope =>
      "[" ++ printEight groups ++ (if scope = 0 then "" else "%" ++ Decimal.print scope) ++ "]"

def print (address : SocketAddress) : String :=
  Host.print address.host ++ ":" ++ Decimal.print address.port.toNat

end SocketAddress

end BatchAuction.Net
