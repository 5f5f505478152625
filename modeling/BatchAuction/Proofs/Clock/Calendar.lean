import BatchAuction.Clock.Calendar

/-!
# Counting days

The number of a day counts the days one by one: it is zero on the first of January 1970 and
the day after has the next number. So days are in the order of their numbers, and the first
and the last date bound them.
-/

set_option autoImplicit false

namespace BatchAuction.Clock

def daysInYear (year : Int) : Int := if isLeapYear year then 366 else 365

namespace Date

theorem daysBeforeYear_succ (year : Int) :
    daysBeforeYear (year + 1) = daysBeforeYear year + daysInYear year := by
  unfold daysBeforeYear daysInYear isLeapYear
  simp only [Int.fdiv_eq_ediv_of_nonneg _ (by decide : (0 : Int) ≤ 4),
    Int.fdiv_eq_ediv_of_nonneg _ (by decide : (0 : Int) ≤ 100),
    Int.fdiv_eq_ediv_of_nonneg _ (by decide : (0 : Int) ≤ 400),
    Bool.and_eq_true, Bool.or_eq_true, decide_eq_true_eq]
  split <;> omega

theorem daysInYear_pos (year : Int) : 0 < daysInYear year := by
  unfold daysInYear
  split <;> decide

/-- A year is over before every later one begins. -/
theorem daysBeforeYear_add_le {earlier later : Int} (less : earlier < later) :
    daysBeforeYear earlier + daysInYear earlier ≤ daysBeforeYear later := by
  obtain ⟨gap, rfl⟩ := Int.le.dest less
  rw [← daysBeforeYear_succ]
  induction gap with
  | zero => simp
  | succ gap ih =>
      have step := daysBeforeYear_succ (earlier + 1 + gap)
      have positive := daysInYear_pos (earlier + 1 + gap)
      have next : earlier + 1 + (gap + 1 : Nat) = earlier + 1 + gap + 1 := by omega
      rw [next, step]
      have reached := ih (by omega)
      omega

/-- The place of a date in its year, the first of January being in the first place. -/
def dayOfYear (date : Date) : Int :=
  daysBeforeMonth date.month +
    (if isLeapYear date.year && decide (2 < date.month) then 1 else 0) + date.day

theorem dayNumber_eq (date : Date) : date.dayNumber =
    daysBeforeYear date.year - daysBeforeYear 1970 + date.dayOfYear - 1 := by
  unfold dayNumber dayOfYear
  dsimp only
  omega

example : dayNumber ⟨1970, 1, 1, by decide⟩ = 0 := by decide

private theorem daysBeforeMonth_add_le : ∀ later ≤ 12, ∀ earlier < later, 1 ≤ earlier →
    daysBeforeMonth earlier + daysInMonth 1 earlier ≤ daysBeforeMonth later := by
  decide

private theorem daysBeforeMonth_add_le_year : ∀ month ≤ 12, 1 ≤ month →
    daysBeforeMonth month + daysInMonth 1 month ≤ 365 := by
  decide

theorem daysInMonth_eq (year : Int) (month : Nat) : daysInMonth year month =
    daysInMonth 1 month + if isLeapYear year && decide (month = 2) then 1 else 0 := by
  have common : isLeapYear 1 = false := by decide
  by_cases leap : isLeapYear year <;> by_cases second : month = 2 <;>
    simp [daysInMonth, leap, second, common]

theorem dayOfYear_pos (date : Date) : 0 < date.dayOfYear := by
  obtain ⟨-, -, -, -, dayLower, -⟩ := date.isDay
  unfold dayOfYear
  split <;> omega

theorem dayOfYear_le (date : Date) : date.dayOfYear ≤ daysInYear date.year := by
  obtain ⟨-, -, monthLower, monthUpper, -, dayUpper⟩ := date.isDay
  have common := daysBeforeMonth_add_le_year date.month monthUpper monthLower
  rw [daysInMonth_eq] at dayUpper
  unfold dayOfYear daysInYear
  cases leap : isLeapYear date.year with
  | false => simp [leap] at dayUpper ⊢; omega
  | true =>
      -- Only February has the leap day, and only later months have it before them.
      simp only [leap, Bool.true_and, decide_eq_true_eq, if_true] at dayUpper ⊢
      split at dayUpper <;> split <;> omega

/-- A month is over before every later one of the year begins. -/
theorem dayOfYear_lt {earlier later : Date} (sameYear : earlier.year = later.year)
    (less : earlier.month < later.month) : earlier.dayOfYear < later.dayOfYear := by
  obtain ⟨-, -, monthLower, -, -, dayUpper⟩ := earlier.isDay
  obtain ⟨-, -, -, monthUpper, dayLower, -⟩ := later.isDay
  have common := daysBeforeMonth_add_le later.month monthUpper earlier.month less monthLower
  rw [daysInMonth_eq, sameYear] at dayUpper
  unfold dayOfYear
  rw [sameYear]
  cases leap : isLeapYear later.year with
  | false => simp [leap] at dayUpper ⊢; omega
  | true =>
      simp only [leap, Bool.true_and, decide_eq_true_eq] at dayUpper ⊢
      split at dayUpper <;> split <;> split <;> omega

/-- The order of the calendar. -/
def Precedes (earlier later : Date) : Prop :=
  earlier.year < later.year ∨ earlier.year = later.year ∧
    (earlier.month < later.month ∨ earlier.month = later.month ∧ earlier.day < later.day)

theorem Precedes.dayNumber_lt {earlier later : Date} (precedes : earlier.Precedes later) :
    earlier.dayNumber < later.dayNumber := by
  rw [dayNumber_eq, dayNumber_eq]
  obtain less | ⟨sameYear, less | ⟨sameMonth, less⟩⟩ := precedes
  · have years := daysBeforeYear_add_le less
    have upper := earlier.dayOfYear_le
    have lower := later.dayOfYear_pos
    omega
  · have months := dayOfYear_lt sameYear less
    rw [sameYear]
    omega
  · have days : earlier.dayOfYear < later.dayOfYear := by
      unfold dayOfYear
      rw [sameYear, sameMonth]
      omega
    rw [sameYear]
    omega

theorem eq_or_precedes (date other : Date) :
    date = other ∨ date.Precedes other ∨ other.Precedes date := by
  by_cases same : date.year = other.year ∧ date.month = other.month ∧ date.day = other.day
  · obtain ⟨year, month, day⟩ := same
    cases date; cases other; cases year; cases month; cases day
    exact .inl rfl
  · unfold Precedes
    omega

/-- Dates are in the order of their numbers. -/
theorem dayNumber_lt_iff {date other : Date} :
    date.dayNumber < other.dayNumber ↔ date.Precedes other := by
  constructor
  · intro less
    obtain rfl | precedes | follows := date.eq_or_precedes other
    · exact absurd less (Int.lt_irrefl _)
    · exact precedes
    · exact absurd (Int.lt_trans less follows.dayNumber_lt) (Int.lt_irrefl _)
  · exact Precedes.dayNumber_lt

private theorem daysBeforeMonth_succ : ∀ month < 12, 1 ≤ month →
    daysBeforeMonth (month + 1) = daysBeforeMonth month + daysInMonth 1 month := by
  decide

theorem of?_eq_some_iff {year : Int} {month day : Nat} {date : Date} :
    of? year month day = some date ↔
      date.year = year ∧ date.month = month ∧ date.day = day := by
  unfold of?
  split
  · rename_i isDay
    constructor
    · intro read
      cases read
      exact ⟨rfl, rfl, rfl⟩
    · intro parts
      obtain ⟨rfl, rfl, rfl⟩ := parts
      rfl
  · rename_i noDay
    refine iff_of_false nofun ?_
    intro parts
    obtain ⟨rfl, rfl, rfl⟩ := parts
    exact noDay date.isDay

theorem of?_eq_none_iff {year : Int} {month day : Nat} :
    of? year month day = none ↔ ¬ IsDay year month day := by
  unfold of?
  split <;> simp_all

/-- The day after is the next one of its month, or the first one of the next month or of the
next year. -/
theorem next?_cases {date later : Date} (next : date.next? = some later) :
    (later.year = date.year ∧ later.month = date.month ∧ later.day = date.day + 1) ∨
    (later.year = date.year ∧ later.month = date.month + 1 ∧ later.day = 1 ∧
      date.day = daysInMonth date.year date.month) ∨
    later.year = date.year + 1 ∧ later.month = 1 ∧ later.day = 1 ∧
      date.month = 12 ∧ date.day = 31 := by
  obtain ⟨yearLower, yearUpper, monthLower, monthUpper, dayLower, dayUpper⟩ := date.isDay
  simp only [next?, Option.orElse_eq_orElse, Option.orElse_eq_or, Option.or_eq_some_iff,
    of?_eq_some_iff, of?_eq_none_iff] at next
  obtain parts | ⟨monthOver, ⟨year, month, day⟩ | ⟨yearOver, year, month, day⟩⟩ := next
  · exact .inl parts
  · refine .inr (.inl ⟨year, month, day, ?_⟩)
    unfold IsDay at monthOver
    omega
  · have begins : 1 ≤ daysInMonth date.year (date.month + 1) := by
      unfold daysInMonth
      split <;> split <;> decide
    have december : date.month = 12 := by
      unfold IsDay at yearOver
      omega
    have length : daysInMonth date.year 12 = 31 := rfl
    unfold IsDay at monthOver
    rw [december, length] at monthOver dayUpper
    exact .inr (.inr ⟨year, month, day, december, by omega⟩)

/-- The first of a month stands behind the last of the month before. -/
theorem dayOfYear_of_month_over {date later : Date} (year : later.year = date.year)
    (month : later.month = date.month + 1) (day : later.day = 1)
    (monthOver : date.day = daysInMonth date.year date.month) :
    later.dayOfYear = date.dayOfYear + 1 := by
  obtain ⟨-, -, monthLower, -, -, -⟩ := date.isDay
  obtain ⟨-, -, -, monthUpper, -, -⟩ := later.isDay
  have before := daysBeforeMonth_succ date.month (by omega) monthLower
  rw [daysInMonth_eq] at monthOver
  unfold dayOfYear
  rw [year, month, day, before, monthOver]
  cases isLeapYear date.year with
  | false => simp
  | true =>
      simp only [Bool.true_and, decide_eq_true_eq]
      split <;> split <;> split <;> omega

theorem dayOfYear_of_year_over {date : Date} (december : date.month = 12)
    (yearOver : date.day = 31) : date.dayOfYear = daysInYear date.year := by
  have before : daysBeforeMonth 12 = 334 := by decide
  unfold dayOfYear daysInYear
  rw [december, yearOver, before]
  cases isLeapYear date.year <;> rfl

theorem dayOfYear_of_new_year {date : Date} (january : date.month = 1) (newYear : date.day = 1) :
    date.dayOfYear = 1 := by
  have before : daysBeforeMonth 1 = 0 := by decide
  unfold dayOfYear
  rw [january, newYear, before]
  simp

/-- The day after has the next number, also at the end of a month and of a year. -/
theorem dayNumber_next? {date later : Date} (next : date.next? = some later) :
    later.dayNumber = date.dayNumber + 1 := by
  rw [dayNumber_eq, dayNumber_eq]
  obtain ⟨year, month, day⟩ | ⟨year, month, day, monthOver⟩ |
    ⟨year, month, day, december, yearOver⟩ := next?_cases next
  · have days : later.dayOfYear = date.dayOfYear + 1 := by
      unfold dayOfYear
      rw [year, month, day]
      omega
    rw [days, year]
    omega
  · rw [dayOfYear_of_month_over year month day monthOver, year]
    omega
  · rw [dayOfYear_of_year_over december yearOver, dayOfYear_of_new_year month day, year,
      daysBeforeYear_succ]
    omega

theorem dayNumber_le_last (date : Date) : date.dayNumber ≤ last.dayNumber := by
  have bounds := date.isDay
  have month : daysInMonth date.year date.month ≤ 31 := by
    unfold daysInMonth
    grind
  apply Int.not_lt.mp
  intro beyond
  have precedes := dayNumber_lt_iff.mp beyond
  simp only [Precedes, last] at precedes
  unfold IsDay at bounds
  omega

theorem first_le_dayNumber (date : Date) : first.dayNumber ≤ date.dayNumber := by
  have bounds := date.isDay
  apply Int.not_lt.mp
  intro beyond
  have precedes := dayNumber_lt_iff.mp beyond
  simp only [Precedes, first] at precedes
  unfold IsDay at bounds
  omega

end Date

end BatchAuction.Clock
