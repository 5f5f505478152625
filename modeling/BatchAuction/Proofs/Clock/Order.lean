import BatchAuction.Clock.Expiry

/-!
# The order of moments

Moments are ordered by day, second and nanoseconds. A deadline that is over at some
time is over at all later times.
-/

set_option autoImplicit false

namespace BatchAuction.Clock

namespace Moment

theorem isBefore_iff {earlier later : Moment} :
    earlier.isBefore later = true ↔
      earlier.day < later.day ∨ earlier.day = later.day ∧
        (earlier.second < later.second ∨
          earlier.second = later.second ∧ earlier.nanos < later.nanos) := by
  simp [isBefore]

/-- A moment before another one is before all that do not precede the other. -/
theorem isBefore_of_not_isBefore {first now later : Moment}
    (before : first.isBefore now = true) (ordered : later.isBefore now = false) :
    first.isBefore later = true := by
  have notBefore := mt isBefore_iff.mpr (Bool.eq_false_iff.mp ordered)
  rw [isBefore_iff] at before ⊢
  omega

/-- A moment that does not come after another one is before all that the other precedes. -/
theorem isBefore_of_isBefore {first middle later : Moment}
    (ordered : middle.isBefore first = false) (before : middle.isBefore later = true) :
    first.isBefore later = true := by
  have notBefore := mt isBefore_iff.mpr (Bool.eq_false_iff.mp ordered)
  rw [isBefore_iff] at before ⊢
  omega

end Moment

/-- Expiry is never undone while the clock does not run backwards. -/
theorem Timestamp.expired_of_not_isBefore {deadline now later : Timestamp} {grace : Duration}
    (overdue : deadline.expired grace now = true)
    (ordered : later.moment.isBefore now.moment = false) :
    deadline.expired grace later = true := by
  unfold expired at overdue ⊢
  cases final : deadline.graceEnd? grace with
  | none => simp [final] at overdue
  | some moment =>
      rw [final] at overdue
      exact Moment.isBefore_of_not_isBefore overdue ordered

/-- A deadline is not over while the end of its grace period is out of reach or not
before the present. -/
theorem Timestamp.expired_eq_false_iff {deadline now : Timestamp} {grace : Duration} :
    deadline.expired grace now = false ↔
      ∀ final, deadline.graceEnd? grace = some final → final.isBefore now.moment = false := by
  unfold expired
  cases deadline.graceEnd? grace <;> simp

end BatchAuction.Clock
