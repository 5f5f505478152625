import BatchAuction.Clock.Duration
import BatchAuction.Decimal.Natural
import BatchAuction.Text.Blank

/-!
# Written durations

A duration is written as spans one after the other, each a number and a unit, such
as `1h 30m` or `1.5s`. A number may have a fraction; the fraction of an hour or of
a longer unit is rounded down to seconds. Every intermediate number fits 64 bits.
-/

set_option autoImplicit false

namespace BatchAuction.Clock

inductive SpanUnit where
  | nanosecond
  | microsecond
  | millisecond
  | second
  | minute
  | hour
  | day
  | week
  | month
  | year
deriving DecidableEq, Repr

namespace SpanUnit

def names : List (SpanUnit × List String) :=
  [(.nanosecond, ["nanos", "nsec", "ns"]),
    (.microsecond, ["usec", "us", "µs"]),
    (.millisecond, ["millis", "msec", "ms"]),
    (.second, ["seconds", "second", "secs", "sec", "s"]),
    (.minute, ["minutes", "minute", "min", "mins", "m"]),
    (.hour, ["hours", "hour", "hrs", "hr", "h"]),
    (.day, ["days", "day", "d"]),
    (.week, ["weeks", "week", "wks", "wk", "w"]),
    (.month, ["months", "month", "M"]),
    (.year, ["years", "year", "yrs", "yr", "y"])]

def ofName? (name : String) : Option SpanUnit :=
  (names.find? fun entry => entry.2.contains name).map (·.1)

/-- What a unit is counted in, in nanoseconds: nanoseconds or seconds. -/
def base : SpanUnit → Nat
  | .nanosecond | .microsecond | .millisecond => 1
  | _ => nanosPerSecond

/-- How many of its base a unit has. A month has 30.44 days and a year 365.25. -/
def size : SpanUnit → Nat
  | .nanosecond => 1
  | .microsecond => 1000
  | .millisecond => 1000000
  | .second => 1
  | .minute => 60
  | .hour => 3600
  | .day => 86400
  | .week => 7 * 86400
  | .month => 2630016
  | .year => 31557600

/-- What a fraction of a unit is counted in, and how many of it a unit has.
Fractions of a second and of a minute are counted in nanoseconds. -/
def fractionSize : SpanUnit → Nat × Nat
  | .second => (1, nanosPerSecond)
  | .minute => (1, 60 * nanosPerSecond)
  | unit => (unit.base, unit.size)

end SpanUnit

/-- The first number that does not fit 64 bits. -/
def wordLimit : Nat := UInt64.size

/-- A number, if it fits 64 bits. -/
def fitting? (value : Nat) : Option Nat := if value < wordLimit then some value else none

structure Fraction where
  numerator : Nat
  denominator : Nat
deriving DecidableEq, Repr

/-- Adds so many of a base to a sum of nanoseconds. -/
def addCounted? (base count total : Nat) : Option Nat := do
  if base = 1 then
    let _ ← fitting? (total % nanosPerSecond + count)
  let sum := total + count * base
  if sum < Duration.limit then some sum else none

/-- Adds a span to a sum of nanoseconds. -/
def addSpan? (number : Nat) (fraction : Option Fraction) (name : List Char) (total : Nat) :
    Option Nat := do
  let unit ← SpanUnit.ofName? (String.ofList name)
  let count ← fitting? (number * unit.size)
  let total ← addCounted? unit.base count total
  match fraction with
  | none => some total
  | some fraction => do
      let (base, size) := unit.fractionSize
      let scaled ← fitting? (fraction.numerator * size)
      addCounted? base (scaled / fraction.denominator) total

/-- What the text read so far ends in. -/
inductive SpanPlace where
  | between
  | number (value : Nat)
  | fraction (value : Nat) (fraction : Fraction)
  | unit (value : Nat) (fraction : Option Fraction) (name : List Char)
deriving DecidableEq, Repr

def isUnitLetter (c : Char) : Bool :=
  ('a' ≤ c && c ≤ 'z') || ('A' ≤ c && c ≤ 'Z') || c = 'µ'

/-- A number with one digit more, if it fits 64 bits. -/
def extend? (value : Nat) (digit : Char) : Option Nat :=
  fitting? (value * 10 + Decimal.digitValue digit)

/-- Reads one character. Blanks may stand anywhere within a number; within a unit
they end it. -/
def readSpanChar (total : Nat) (place : SpanPlace) (c : Char) : Option (Nat × SpanPlace) :=
  match place with
  | .between =>
      if Decimal.isDigit c then some (total, .number (Decimal.digitValue c))
      else if Text.isBlank c then some (total, .between)
      else none
  | .number value =>
      if Decimal.isDigit c then do return (total, .number (← extend? value c))
      else if Text.isBlank c then some (total, .number value)
      else if isUnitLetter c then some (total, .unit value none [c])
      else if c = '.' then some (total, .fraction value ⟨0, 1⟩)
      else none
  | .fraction value fraction =>
      if Decimal.isDigit c then do
        let denominator ← fitting? (fraction.denominator * 10)
        return (total, .fraction value ⟨← extend? fraction.numerator c, denominator⟩)
      else if Text.isBlank c then some (total, .fraction value fraction)
      else if isUnitLetter c then
        if fraction.denominator = 1 then none
        else some (total, .unit value (some fraction) [c])
      else none
  | .unit value fraction name =>
      if Decimal.isDigit c then do
        return (← addSpan? value fraction name total, .number (Decimal.digitValue c))
      else if Text.isBlank c then do
        return (← addSpan? value fraction name total, .between)
      else if isUnitLetter c then some (total, .unit value fraction (name ++ [c]))
      else none

/-- Reads spans up to the end of the text. -/
def readSpans : (total : Nat) → SpanPlace → List Char → Option Nat
  | total, .between, [] => some total
  | total, .unit value fraction name, [] => addSpan? value fraction name total
  | _, _, [] => none
  | total, place, c :: rest => do
      let (total, place) ← readSpanChar total place c
      readSpans total place rest

/-- Reads a duration. A bare zero needs no unit; anything else needs a span. -/
def Duration.ofText? (s : String) : Option Duration :=
  let cs := s.toList
  if s = "0" then some .zero
  else if cs.all Text.isBlank then none
  else (readSpans 0 .between cs).bind Duration.ofNanos?

end BatchAuction.Clock
