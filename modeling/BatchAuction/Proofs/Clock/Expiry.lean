import BatchAuction.Proofs.Clock.Calendar
import BatchAuction.Proofs.Clock.Order

/-!
# Expiry is exact

The end of a grace period is the sum of deadline and grace without any bound, and expiry
compares the present with that sum: a sum that is not computed lies beyond the calendar,
where no present is. Expiry is never undone by a shorter grace period or a later present,
also where a leap second is involved.
-/

set_option autoImplicit false

namespace BatchAuction.Clock

namespace Moment

/-- The whole seconds since the start of 1970. -/
def wholeSeconds (moment : Moment) : Int := moment.day * secondsPerDay + moment.second

/-- The nanoseconds since the start of 1970. A leap second is counted as the one after it. -/
def elapsed (moment : Moment) : Int := moment.wholeSeconds * nanosPerSecond + moment.nanos

/-- The end of a grace period on the line of days without end. -/
def afterGrace (moment : Moment) (grace : Duration) : Moment :=
  moment.after grace.seconds grace.fraction

theorem isBefore_iff_wholeSeconds {earlier later : Moment}
    (earlierWithin : earlier.second < secondsPerDay)
    (laterWithin : later.second < secondsPerDay) :
    earlier.isBefore later = true ↔
      earlier.wholeSeconds < later.wholeSeconds ∨
        earlier.wholeSeconds = later.wholeSeconds ∧ earlier.nanos < later.nanos := by
  rw [isBefore_iff]
  simp only [wholeSeconds, secondsPerDay] at *
  omega

/-- Outside of leap seconds moments are in the order of their nanoseconds. -/
theorem isBefore_iff_elapsed {earlier later : Moment}
    (earlierWithin : earlier.second < secondsPerDay)
    (laterWithin : later.second < secondsPerDay)
    (earlierPlain : earlier.nanos < nanosPerSecond) (laterPlain : later.nanos < nanosPerSecond) :
    earlier.isBefore later = true ↔ earlier.elapsed < later.elapsed := by
  rw [isBefore_iff_wholeSeconds earlierWithin laterWithin]
  simp only [elapsed, nanosPerSecond] at *
  omega

theorem second_ofSecond_lt (day : Int) (second nanos : Nat) :
    (ofSecond day second nanos).second < secondsPerDay := Nat.mod_lt _ (by decide)

@[simp] theorem wholeSeconds_ofSecond (day : Int) (second nanos : Nat) :
    (ofSecond day second nanos).wholeSeconds = day * secondsPerDay + second := by
  simp only [wholeSeconds, ofSecond, secondsPerDay]
  omega

@[simp] theorem nanos_ofSecond (day : Int) (second nanos : Nat) :
    (ofSecond day second nanos).nanos = nanos := rfl

/-- The condition under which a moment stays in its leap second, without the parts of the
grace period. -/
private theorem stays_iff (moment : Moment) (grace : Duration) :
    (nanosPerSecond ≤ moment.nanos && grace.seconds = 0 &&
        moment.nanos + grace.fraction < 2 * nanosPerSecond) = true ↔
      nanosPerSecond ≤ moment.nanos ∧ moment.nanos + grace.nanos < 2 * nanosPerSecond := by
  simp only [Bool.and_eq_true, decide_eq_true_eq]
  simp only [Duration.seconds, Duration.fraction, nanosPerSecond]
  omega

/-- A grace period ends in the leap second that it began in, or at the sum, for which a leap
second is counted as the second that it prolongs. -/
theorem afterGrace_eq {moment : Moment} (below : moment.nanos < 2 * nanosPerSecond)
    (grace : Duration) :
    moment.afterGrace grace =
      if nanosPerSecond ≤ moment.nanos ∧ moment.nanos + grace.nanos < 2 * nanosPerSecond then
        ⟨moment.day, moment.second, moment.nanos + grace.nanos⟩
      else
        let sum := moment.nanos % nanosPerSecond + grace.nanos
        ofSecond moment.day (moment.second + sum / nanosPerSecond) (sum % nanosPerSecond) := by
  unfold afterGrace after
  dsimp only
  simp only [stays_iff]
  split
  · rename_i stays
    congr 1
    simp only [Duration.fraction, nanosPerSecond] at *
    omega
  · -- A leap second is counted once, whether it is taken off before or after the carry.
    have counted : (if nanosPerSecond ≤ moment.nanos
        then moment.nanos + grace.fraction - nanosPerSecond
        else moment.nanos + grace.fraction) =
          moment.nanos % nanosPerSecond + grace.fraction := by
      split <;> simp only [nanosPerSecond] at * <;> omega
    rw [counted]
    congr 1 <;> simp only [Duration.seconds, Duration.fraction, nanosPerSecond] <;> omega

/-- Outside of leap seconds the end of a grace period is the exact sum. -/
theorem elapsed_afterGrace {moment : Moment} (plain : moment.nanos < nanosPerSecond)
    (grace : Duration) :
    (moment.afterGrace grace).elapsed = moment.elapsed + grace.nanos := by
  have below : moment.nanos < 2 * nanosPerSecond := by omega
  rw [afterGrace_eq below, if_neg (by omega)]
  simp only [elapsed, wholeSeconds_ofSecond, nanos_ofSecond]
  simp only [wholeSeconds, nanosPerSecond] at *
  omega

theorem second_afterGrace_lt {moment : Moment} (within : moment.second < secondsPerDay)
    (below : moment.nanos < 2 * nanosPerSecond) (grace : Duration) :
    (moment.afterGrace grace).second < secondsPerDay := by
  rw [afterGrace_eq below]
  split
  · exact within
  · exact second_ofSecond_lt ..

theorem nanos_afterGrace_lt {moment : Moment} (plain : moment.nanos < nanosPerSecond)
    (grace : Duration) : (moment.afterGrace grace).nanos < nanosPerSecond := by
  have below : moment.nanos < 2 * nanosPerSecond := by omega
  rw [afterGrace_eq below, if_neg (by omega)]
  exact Nat.mod_lt _ (by decide)

/-- The longer grace period does not end before the shorter one. -/
theorem afterGrace_not_isBefore {moment : Moment} (within : moment.second < secondsPerDay)
    (below : moment.nanos < 2 * nanosPerSecond) {shorter longer : Duration}
    (less : shorter.nanos ≤ longer.nanos) :
    (moment.afterGrace longer).isBefore (moment.afterGrace shorter) = false := by
  rw [Bool.eq_false_iff, Ne, isBefore_iff_wholeSeconds (second_afterGrace_lt within below longer)
    (second_afterGrace_lt within below shorter), afterGrace_eq below, afterGrace_eq below]
  split <;> split <;> simp only [wholeSeconds_ofSecond, nanos_ofSecond] <;>
    simp only [wholeSeconds, nanosPerSecond] at * <;> omega

end Moment

namespace Timestamp

theorem elapsed_moment (timestamp : Timestamp) : timestamp.moment.elapsed = timestamp.elapsed :=
  rfl

/-- A grace period that is too long to be added would end beyond the calendar. -/
theorem last_lt_afterGrace {deadline : Timestamp} {grace : Duration}
    (long : graceLimit < grace.nanos) :
    Date.last.dayNumber < (deadline.moment.afterGrace grace).day := by
  have limit : graceLimit = 9223372036854775807000000 := by decide
  have first : Date.first.dayNumber = -96465292 := by decide
  have last : Date.last.dayNumber = 95026236 := by decide
  have lower : Date.first.dayNumber ≤ deadline.moment.day := deadline.date.first_le_dayNumber
  have below := deadline.nanos_lt
  have leaves : ¬ (nanosPerSecond ≤ deadline.moment.nanos ∧
      deadline.moment.nanos + grace.nanos < 2 * nanosPerSecond) := by
    unfold nanosPerSecond
    omega
  rw [Moment.afterGrace_eq below, if_neg leaves]
  simp only [Moment.ofSecond, secondsPerDay, nanosPerSecond]
  omega

/-- Whether a deadline is over is decided by the end of its grace period on the line of days
without end, also where that end is not computed. -/
theorem expired_eq_isBefore (deadline : Timestamp) (grace : Duration) (now : Timestamp) :
    deadline.expired grace now = (deadline.moment.afterGrace grace).isBefore now.moment := by
  have upper : now.moment.day ≤ Date.last.dayNumber := now.date.dayNumber_le_last
  have beyond (far : Date.last.dayNumber < (deadline.moment.afterGrace grace).day) :
      false = (deadline.moment.afterGrace grace).isBefore now.moment := by
    rw [eq_comm, Bool.eq_false_iff, Ne, Moment.isBefore_iff]
    omega
  unfold expired graceEnd?
  by_cases short : grace.nanos ≤ graceLimit
  · rw [if_pos short]
    change (match (if (deadline.moment.afterGrace grace).day ≤ _ then _ else _) with
      | some final => Moment.isBefore final now.moment
      | none => false) = _
    by_cases within : (deadline.moment.afterGrace grace).day ≤ Date.last.dayNumber
    · rw [if_pos within]
      rfl
    · rw [if_neg within]
      exact beyond (by omega)
  · rw [if_neg short]
    exact beyond (last_lt_afterGrace (by omega))

/-- Outside of leap seconds a deadline is over just if deadline and grace add up to less than
the present, in nanoseconds without any bound. A deadline that is over stays over when the
grace period is shortened and time goes on, leap seconds included. -/
theorem expiry_exact_and_monotone (deadline now : Timestamp) (grace : Duration) :
    (deadline.nanos < nanosPerSecond → now.nanos < nanosPerSecond →
      (deadline.expired grace now = true ↔
        deadline.elapsed + grace.nanos < now.elapsed)) ∧
    (deadline.expired grace now = true →
      ∀ (shorter : Duration) (later : Timestamp), shorter.nanos ≤ grace.nanos →
        later.moment.isBefore now.moment = false →
        deadline.expired shorter later = true) := by
  have within : deadline.moment.second < secondsPerDay := deadline.second_lt
  have below : deadline.moment.nanos < 2 * nanosPerSecond := deadline.nanos_lt
  constructor
  · intro plain nowPlain
    rw [expired_eq_isBefore, Moment.isBefore_iff_elapsed
      (Moment.second_afterGrace_lt within below grace) now.second_lt
      (Moment.nanos_afterGrace_lt plain grace) nowPlain,
      Moment.elapsed_afterGrace plain, elapsed_moment, elapsed_moment]
  · intro overdue shorter later less ordered
    have sooner : deadline.expired shorter now = true := by
      rw [expired_eq_isBefore] at overdue ⊢
      exact Moment.isBefore_of_isBefore (Moment.afterGrace_not_isBefore within below less) overdue
    exact expired_of_not_isBefore sooner ordered

/-- A deadline in a leap second that a grace period leads out of is over for good, and the
last of all deadlines is never over, however long its grace period. -/
theorem leap_deadline_over_for_good :
    let newYear : Date := ⟨1970, 1, 1, by decide⟩
    let deadline : Timestamp := ⟨newYear, 59, 1500000000, by decide, by decide, by decide⟩
    let now : Timestamp := ⟨newYear, 60, 200000000, by decide, by decide, by decide⟩
    let grace : Duration := ⟨600000000, by decide⟩
    let longest : Duration := ⟨Duration.limit - 1, by decide⟩
    deadline.expired grace now = true ∧ deadline.expired .zero last = true ∧
      last.expired longest last = false := by
  intro newYear deadline now grace longest
  have overdue : deadline.expired grace now = true := by decide +kernel
  obtain ⟨-, monotone⟩ := expiry_exact_and_monotone deadline now grace
  obtain ⟨exact, -⟩ := expiry_exact_and_monotone last last longest
  refine ⟨overdue, monotone overdue .zero last (by decide) (by decide +kernel), ?_⟩
  rw [Bool.eq_false_iff, Ne, exact (by decide) (by decide)]
  omega

end Timestamp

end BatchAuction.Clock
