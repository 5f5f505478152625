import BatchAuction.Clock.Calendar
import BatchAuction.Clock.Duration
import BatchAuction.Decimal.Natural
import BatchAuction.Text.Blank

/-!
# Timestamps

Timestamps are read from a lenient form of the internet date format and written
in its strict form in universal time. A leap second is a second 59 with a
fraction of one second or more, so it can be told from the second after it.
-/

set_option autoImplicit false

namespace BatchAuction.Clock

def secondsPerDay : Nat := 86400

/-- A point in universal time. The nanoseconds reach to two seconds within a leap
second, which only ends a minute. -/
structure Timestamp where
  date : Date
  second : Nat
  nanos : Nat
  second_lt : second < secondsPerDay
  nanos_lt : nanos < 2 * nanosPerSecond
  leap_ends_minute : nanosPerSecond ≤ nanos → second % 60 = 59
deriving DecidableEq

namespace Timestamp

/-- The point in time of the given parts, if they are in range. -/
def of? (date : Date) (second nanos : Nat) : Option Timestamp :=
  if bounds : second < secondsPerDay ∧ nanos < 2 * nanosPerSecond ∧
      (nanosPerSecond ≤ nanos → second % 60 = 59) then
    some ⟨date, second, nanos, bounds.1, bounds.2.1, bounds.2.2⟩
  else none

def first : Timestamp := ⟨Date.first, 0, 0, by decide, by decide, by decide⟩

def last : Timestamp :=
  ⟨Date.last, secondsPerDay - 1, nanosPerSecond - 1, by decide, by decide, by decide⟩

/-- Why a text is not a timestamp. -/
inductive ParseError where
  | tooShort
  | tooLong
  | invalid
  | outOfRange
  | impossible
deriving DecidableEq, Repr

/-- What a reader of the error is told. -/
def ParseError.message : ParseError → String
  | .tooShort => "premature end of input"
  | .tooLong => "trailing input"
  | .invalid => "input contains invalid characters"
  | .outOfRange => "input is out of range"
  | .impossible => "no possible date and time matching input"

/-- A reader of one part, which leaves the rest of the text to the next one. -/
abbrev Reader := StateT (List Char) (Except ParseError)

/-- The greatest number a part may denote. -/
def maxPart : Nat := Int64.maxValue.toNatClampNeg

/-- Takes up to `width` digits after the first ones. -/
def moreDigits : (width : Nat) → (value : Nat) → List Char →
    Except ParseError (Nat × List Char)
  | 0, value, rest => .ok (value, rest)
  | _ + 1, value, [] => .ok (value, [])
  | width + 1, value, c :: rest =>
      if !Decimal.isDigit c then .ok (value, c :: rest)
      else if maxPart < value * 10 + Decimal.digitValue c then .error .outOfRange
      else moreDigits width (value * 10 + Decimal.digitValue c) rest

/-- A number of at least one and at most `width` digits. -/
def number (width : Nat) : Reader Nat := fun cs =>
  match cs with
  | [] => .error .tooShort
  | c :: rest =>
      if Decimal.isDigit c then moreDigits (width - 1) (Decimal.digitValue c) rest
      else .error .invalid

def skipBlanks : Reader Unit := modify Text.trimStart

/-- A number of one or two digits within bounds, after blanks. -/
def field (low high : Nat) : Reader Nat := do
  skipBlanks
  let value ← number 2
  if value < low || high < value then throw .outOfRange
  return value

/-- One fixed character, after blanks. -/
def mark (c : Char) : Reader Unit := fun cs =>
  match Text.trimStart cs with
  | [] => .error .tooShort
  | first :: rest => if first = c then .ok ((), rest) else .error .invalid

/-- A year: four digits, or a sign and any number of digits. -/
def unboundedYear : Reader Int := fun cs =>
  match Text.trimStart cs with
  | '-' :: rest => (number rest.length rest).map fun (value, rest) => (-(value : Int), rest)
  | '+' :: rest => (number rest.length rest).map fun (value, rest) => ((value : Int), rest)
  | rest => (number 4 rest).map fun (value, rest) => ((value : Int), rest)

/-- A year, after blanks. One that does not fit 32 bits is refused before the month
is read. -/
def yearPart : Reader Int := do
  let year ← unboundedYear
  if year < Int32.minValue.toInt || Int32.maxValue.toInt < year then throw .outOfRange
  return year

/-- The fraction of a second in nanoseconds. Digits after the ninth are dropped. -/
def fraction : Reader Nat := fun cs =>
  match cs with
  | '.' :: rest => (number 9 rest).map fun (value, after) =>
      (value * Nat.pow 10 (9 - (rest.length - after.length)), after.dropWhile Decimal.isDigit)
  | rest => .ok (0, rest)

/-- The separator between date and time. -/
def separator : Reader Unit := fun cs =>
  match cs with
  | [] => .error .tooShort
  | c :: rest => if c = 'T' || c = 't' || c = ' ' then .ok ((), rest) else .error .invalid

/-- The number of two digits, of which the first has a bound. -/
def twoDigits (greatest : Char) : Reader Nat := fun cs =>
  match cs with
  | first :: second :: rest =>
      if !Decimal.isDigit first || !Decimal.isDigit second then .error .invalid
      else if greatest < first then .error .outOfRange
      else .ok (Decimal.digitValue first * 10 + Decimal.digitValue second, rest)
  | [c] => .error (if c.toNat < 128 then .tooShort else .invalid)
  | [] => .error .tooShort

/-- Hours and minutes of an offset, in seconds. Colons and blanks between them are
ignored. -/
def offsetSeconds : Reader Nat := do
  let hours ← twoDigits '9'
  modify fun cs => cs.dropWhile fun c => c = ':' || Text.isBlank c
  let minutes ← twoDigits '5'
  return hours * 3600 + minutes * 60

/-- An offset that begins with a sign, or a single letter for none. -/
def signedOffset : Reader Int := fun cs =>
  match cs with
  | [] => .error .tooShort
  | c :: rest =>
      if c = 'Z' || c = 'z' then .ok (0, rest)
      else if c = '+' then (offsetSeconds rest).map fun (n, rest) => ((n : Int), rest)
      else if c = '-' || c = Char.ofNat 0x2212 then
        (offsetSeconds rest).map fun (n, rest) => (-(n : Int), rest)
      else .error .invalid

/-- The offset from universal time in seconds, positive to the east. The name of
universal time is read in any letter case. -/
def offset : Reader Int := fun cs =>
  match cs with
  | a :: b :: c :: rest =>
      if a.toUpper = 'U' && b.toUpper = 'T' && c.toUpper = 'C' then .ok (0, rest)
      else signedOffset cs
  | _ => signedOffset cs

/-- The parts of a timestamp as they are written. -/
structure Parts where
  year : Int
  month : Nat
  day : Nat
  hour : Nat
  minute : Nat
  second : Nat
  nanos : Nat
  offset : Int

def parts : Reader Parts := do
  let year ← yearPart
  mark '-'
  let month ← field 1 12
  mark '-'
  let day ← field 1 31
  separator
  let hour ← field 0 23
  mark ':'
  let minute ← field 0 59
  mark ':'
  let second ← field 0 60
  let nanos ← fraction
  skipBlanks
  let offset ← offset
  skipBlanks
  return ⟨year, month, day, hour, minute, second, nanos, offset⟩

/-- The point in universal time of a local time with an offset. -/
def toUniversal? (date : Date) (second nanos : Nat) (offset : Int) : Option Timestamp :=
  let shifted := (second : Int) - offset
  if shifted < 0 then
    date.previous?.bind fun date => of? date (shifted + secondsPerDay).toNat nanos
  else if (secondsPerDay : Int) ≤ shifted then
    date.next?.bind fun date => of? date (shifted - secondsPerDay).toNat nanos
  else of? date shifted.toNat nanos

/-- The point in time that written parts denote. A second 60 is a leap second of
whatever minute. -/
def ofParts (parts : Parts) : Except ParseError Timestamp :=
  match Date.of? parts.year parts.month parts.day with
  | none => .error .outOfRange
  | some date =>
      if secondsPerDay ≤ parts.offset.natAbs then .error .outOfRange
      else
        let leap := parts.second = 60
        let second := if leap then 59 else parts.second
        let nanos := if leap then parts.nanos + nanosPerSecond else parts.nanos
        match toUniversal? date (parts.hour * 3600 + parts.minute * 60 + second) nanos
            parts.offset with
        | some timestamp => .ok timestamp
        | none => .error .impossible

/-- Reads a timestamp. Blanks may stand around every part. -/
def parse (s : String) : Except ParseError Timestamp := do
  let (parts, rest) ← parts.run s.toList
  if !rest.isEmpty then throw .tooLong
  ofParts parts

def padded (width value : Nat) : List Char :=
  let digits := Decimal.digits value
  List.replicate (width - digits.length) '0' ++ digits

/-- The text of a year: a sign outside of the four-digit years. -/
def yearChars (year : Int) : List Char :=
  if 0 ≤ year ∧ year ≤ 9999 then padded 4 year.toNat
  else (if year < 0 then '-' else '+') :: padded 4 year.natAbs

/-- The text of a timestamp, up to and including the seconds. -/
def secondsChars (timestamp : Timestamp) : List Char :=
  let second := timestamp.second % 60 + timestamp.nanos / nanosPerSecond
  yearChars timestamp.date.year ++ '-' :: padded 2 timestamp.date.month ++
    '-' :: padded 2 timestamp.date.day ++ 'T' :: padded 2 (timestamp.second / 3600) ++
    ':' :: padded 2 (timestamp.second / 60 % 60) ++ ':' :: padded 2 second

/-- The text of a timestamp with as many groups of three fraction digits as it
needs. -/
def print (timestamp : Timestamp) : String :=
  let nanos := timestamp.nanos % nanosPerSecond
  let fraction :=
    if nanos = 0 then []
    else if nanos % 1000000 = 0 then '.' :: padded 3 (nanos / 1000000)
    else if nanos % 1000 = 0 then '.' :: padded 6 (nanos / 1000)
    else '.' :: padded 9 nanos
  String.ofList (timestamp.secondsChars ++ fraction ++ ['Z'])

/-- The text of a timestamp with all nine fraction digits. -/
def printNanos (timestamp : Timestamp) : String :=
  String.ofList (timestamp.secondsChars ++
    '.' :: padded 9 (timestamp.nanos % nanosPerSecond) ++ ['Z'])

end Timestamp

end BatchAuction.Clock
