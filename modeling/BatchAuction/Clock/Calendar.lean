/-!
# Calendar dates

Dates of the proleptic Gregorian calendar, with a year zero and negative years
before it. Days are counted from the first of January 1970.
-/

set_option autoImplicit false

namespace BatchAuction.Clock

/-- The first year that a date may have. -/
def minYear : Int := -262143

/-- The last year that a date may have. -/
def maxYear : Int := 262142

/-- Whether a year has a 29th of February. -/
def isLeapYear (year : Int) : Bool :=
  year % 4 = 0 && (year % 100 ≠ 0 || year % 400 = 0)

/-- The number of days of a month. -/
def daysInMonth (year : Int) (month : Nat) : Nat :=
  if month = 2 then if isLeapYear year then 29 else 28
  else if month = 4 || month = 6 || month = 9 || month = 11 then 30
  else 31

/-- Whether the calendar has a day. -/
def IsDay (year : Int) (month day : Nat) : Prop :=
  minYear ≤ year ∧ year ≤ maxYear ∧ 1 ≤ month ∧ month ≤ 12 ∧ 1 ≤ day ∧
    day ≤ daysInMonth year month

instance (year : Int) (month day : Nat) : Decidable (IsDay year month day) :=
  inferInstanceAs (Decidable (_ ∧ _))

structure Date where
  year : Int
  month : Nat
  day : Nat
  isDay : IsDay year month day
deriving DecidableEq

namespace Date

/-- The date of the given parts, if the calendar has it. -/
def of? (year : Int) (month day : Nat) : Option Date :=
  if isDay : IsDay year month day then some ⟨year, month, day, isDay⟩ else none

/-- The days of a common year before a month. -/
def daysBeforeMonth (month : Nat) : Nat :=
  (List.range (month - 1)).foldl (fun days index => days + daysInMonth 1 (index + 1)) 0

/-- The days from the first of January of year zero to the first of a year. -/
def daysBeforeYear (year : Int) : Int :=
  let last := year - 1
  365 * year + last.fdiv 4 - last.fdiv 100 + last.fdiv 400 + 1

/-- The number of days since the first of January 1970; negative before it. -/
def dayNumber (date : Date) : Int :=
  let leapDay : Int := if isLeapYear date.year && decide (2 < date.month) then 1 else 0
  daysBeforeYear date.year - daysBeforeYear 1970 + daysBeforeMonth date.month + leapDay +
    date.day - 1

/-- The day after, unless there is none. -/
def next? (date : Date) : Option Date :=
  of? date.year date.month (date.day + 1) <|> of? date.year (date.month + 1) 1 <|>
    of? (date.year + 1) 1 1

/-- The day before, unless there is none. -/
def previous? (date : Date) : Option Date :=
  of? date.year date.month (date.day - 1) <|>
    of? date.year (date.month - 1) (daysInMonth date.year (date.month - 1)) <|>
    of? (date.year - 1) 12 31

def first : Date := ⟨minYear, 1, 1, by decide⟩

def last : Date := ⟨maxYear, 12, 31, by decide⟩

end Date

end BatchAuction.Clock
