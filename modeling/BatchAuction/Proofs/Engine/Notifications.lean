import BatchAuction.Engine.Basic
import BatchAuction.Proofs.Wire.Recognition

/-!
# What becomes of a notification

Every object is taken for a notification: one of a known kind if it is recognized, and one
of unrecognized kind otherwise. What the solver is told of it keeps the identifiers, the
kind and its name, which is the label that it is counted under.
-/

set_option autoImplicit false

namespace BatchAuction

open Wire

namespace NotificationKind

/-- What is told of two kinds is the same just if they differ in the transaction of a failed
simulation at most. -/
theorem occurrence_eq_iff (kind other : NotificationKind) :
    kind.occurrence = other.occurrence ↔
      kind = other ∨ ∃ block transaction otherTransaction succeededOnce,
        kind = .simulationFailed block transaction succeededOnce ∧
          other = .simulationFailed block otherTransaction succeededOnce := by
  cases kind <;> cases other <;> simp [occurrence]
  -- Only two failed simulations are left, which are told without their transactions.
  grind

/-- The name of the kind stays the same. -/
theorem label_occurrence (kind : NotificationKind) : kind.occurrence.label = kind.label := by
  cases kind <;> rfl

end NotificationKind

/-- Just the objects are notifications. One is of a known kind just if it is recognized,
which a number in place of the tag does not prevent, and any other keeps the text of its
tag. What is told of it has its identifiers, its kind and the name it is counted under. -/
theorem notifications_recognized_and_told (value : Json) :
    ((∃ error, lenientNotification value = .error error) ↔
      ¬ ∃ members, value = .object members) ∧
    (∀ notification, lenientNotification value = .ok notification ∧ Known notification ↔
      Recognized value notification) ∧
    (∀ name, (∃ notification, lenientNotification value = .ok notification ∧
        notification.kind = .unrecognized name) ↔
      (∃ members, value = .object members) ∧ (¬ ∃ other, Recognized value other) ∧
        name = (value.member? Decoder.tagName).bind Json.asText?) ∧
    (∀ notification other : Notification, notification.report = other.report ↔
      notification.auctionId = other.auctionId ∧ notification.solution = other.solution ∧
        (notification.kind = other.kind ∨
          ∃ block transaction otherTransaction succeededOnce,
            notification.kind = .simulationFailed block transaction succeededOnce ∧
              other.kind = .simulationFailed block otherTransaction succeededOnce)) ∧
    (∀ notification : Notification, notification.report.auctionId = notification.auctionId ∧
      notification.report.solution = notification.solution ∧
      notification.report.occurrence.label = notification.kind.label) ∧
    ∀ (engine : Engine) (body : List UInt8), (engine.notify body).2.metrics =
      match Engine.readNotification body with
      | .ok notification => engine.metrics.notified notification.kind.label
      | .error _ => engine.metrics := by
  refine ⟨?accepts, ?known, ?unknown, ?told, ?kept, ?counted⟩
  case accepts =>
    cases value with
    | object members =>
        refine iff_of_false ?_ fun plain => plain ⟨members, rfl⟩
        rintro ⟨error, refused⟩
        obtain ⟨notification, accepted⟩ := exists_lenientNotification_eq_ok members
        cases accepted.symm.trans refused
    | _ => exact iff_of_true ⟨_, rfl⟩ nofun
  case known =>
    intro notification
    constructor
    · rintro ⟨read, known⟩
      rcases lenientNotification_eq_ok_iff.mp read with recognized | ⟨_, _, rfl⟩
      · exact recognized
      · exact absurd ⟨_, rfl⟩ known
    · intro recognized
      exact ⟨lenientNotification_of_recognized recognized, recognized.known⟩
  case unknown =>
    intro name
    constructor
    · rintro ⟨notification, read, unknown⟩
      rcases lenientNotification_eq_ok_iff.mp read with recognized | ⟨isObject, foreign, rfl⟩
      · exact absurd ⟨name, unknown⟩ recognized.known
      · exact ⟨isObject, foreign, (NotificationKind.unrecognized.inj unknown).symm⟩
    · rintro ⟨isObject, foreign, rfl⟩
      exact ⟨_, lenientNotification_eq_ok_iff.mpr (.inr ⟨isObject, foreign, rfl⟩), rfl⟩
  case told =>
    intro notification other
    rw [← NotificationKind.occurrence_eq_iff]
    simp [Notification.report]
  case kept =>
    exact fun notification => ⟨rfl, rfl, notification.kind.label_occurrence⟩
  case counted =>
    intro engine body
    unfold Engine.notify
    cases Engine.readNotification body with
    | error error => rfl
    | ok notification =>
        dsimp only
        rw [← notification.kind.label_occurrence]
        rfl

/-- The number of a name names a kind: the first kind is read off zero. -/
theorem numbered_tag_recognized :
    lenientNotification (.object [("kind", .natural 0)]) = .ok ⟨none, none, .timeout⟩ := rfl

end BatchAuction
