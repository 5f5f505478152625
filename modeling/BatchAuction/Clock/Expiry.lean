import BatchAuction.Clock.Timestamp

/-!
# Expiry

A deadline expires once a grace period after it is over. The end of the period is
computed on day, second of the day and nanoseconds. A deadline within a leap second
stays there if the grace period does not lead out of it; otherwise its second is
counted like any other.
-/

set_option autoImplicit false

namespace BatchAuction.Clock

/-- A point in time on a line of days without end. -/
structure Moment where
  day : Int
  second : Nat
  nanos : Nat
deriving DecidableEq, Repr

namespace Moment

/-- Whether a moment comes before another. -/
def isBefore (earlier later : Moment) : Bool :=
  earlier.day < later.day ||
    (earlier.day = later.day &&
      (earlier.second < later.second ||
        (earlier.second = later.second && earlier.nanos < later.nanos)))

/-- The moment of a second counted from the start of a day. -/
def ofSecond (day : Int) (second nanos : Nat) : Moment :=
  ⟨day + second / secondsPerDay, second % secondsPerDay, nanos⟩

/-- A moment some seconds and nanoseconds later. -/
def after (moment : Moment) (seconds nanos : Nat) : Moment :=
  let sum := moment.nanos + nanos
  if nanosPerSecond ≤ moment.nanos && seconds = 0 && sum < 2 * nanosPerSecond then
    ⟨moment.day, moment.second, sum⟩
  else
    let counted := if nanosPerSecond ≤ moment.nanos then sum - nanosPerSecond else sum
    ofSecond moment.day (moment.second + seconds + counted / nanosPerSecond)
      (counted % nanosPerSecond)

end Moment

/-- The longest grace period that is added to a deadline: as many milliseconds as fit
64 bits with a sign. A longer one never ends. -/
def graceLimit : Nat := Int64.maxValue.toNatClampNeg * 1000000

namespace Timestamp

def moment (timestamp : Timestamp) : Moment :=
  ⟨timestamp.date.dayNumber, timestamp.second, timestamp.nanos⟩

/-- The nanoseconds since the start of 1970. A leap second is counted as the one
after it. -/
def elapsed (timestamp : Timestamp) : Int :=
  (timestamp.date.dayNumber * secondsPerDay + timestamp.second) * nanosPerSecond +
    timestamp.nanos

/-- The end of a grace period, unless it lies beyond the calendar. -/
def graceEnd? (deadline : Timestamp) (grace : Duration) : Option Moment :=
  if grace.nanos ≤ graceLimit then
    let final := deadline.moment.after grace.seconds grace.fraction
    if final.day ≤ Date.last.dayNumber then some final else none
  else none

/-- Whether a deadline and the grace period after it are over. -/
def expired (deadline : Timestamp) (grace : Duration) (now : Timestamp) : Bool :=
  match deadline.graceEnd? grace with
  | some final => final.isBefore now.moment
  | none => false

/-- Whether any time is left until a deadline. Of two moments on different days
only the seconds of the day decide whether a leap second lies between. -/
def isAhead (deadline now : Timestamp) : Bool :=
  let leap : Int :=
    if now.second < deadline.second && nanosPerSecond ≤ now.nanos then 1
    else if deadline.second < now.second && nanosPerSecond ≤ deadline.nanos then -1
    else 0
  0 ≤ deadline.elapsed - now.elapsed + leap * nanosPerSecond

end Timestamp

end BatchAuction.Clock
