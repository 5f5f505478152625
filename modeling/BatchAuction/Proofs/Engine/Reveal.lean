import BatchAuction.Proofs.Engine.Run
import BatchAuction.Proofs.Solver.Interleaving

/-!
# Answers to reveal requests

The answer to a reveal request follows from the candidates that were returned before and
from the clock: the calldata of the candidate, or one and the same refusal.
-/

set_option autoImplicit false

namespace BatchAuction

open Clock

namespace Engine

theorem revealFor_answer (engine : Engine) (now : Timestamp) (request : RevealRequest) :
    (engine.revealFor now request).1 =
      match (engine.solver.reveal now request.solutionId request.auctionId).1 with
      | .ok calldata => success (Wire.revealResponse.encode ⟨calldata⟩)
      | .error _ => RefusalKind.solutionNotFound.response := by
  unfold revealFor
  rcases engine.solver.reveal now request.solutionId request.auctionId with
    ⟨⟨cause⟩ | calldata, solver⟩ <;> rfl

theorem revealFor_of_ok {engine : Engine} {now : Timestamp} {request : RevealRequest}
    {calldata : Calldata}
    (revealed :
      (engine.solver.reveal now request.solutionId request.auctionId).1 = .ok calldata) :
    (engine.revealFor now request).1 = success (Wire.revealResponse.encode ⟨calldata⟩) := by
  rw [revealFor_answer, revealed]

theorem revealFor_of_error {engine : Engine} {now : Timestamp} {request : RevealRequest}
    {error : RevealError}
    (revealed :
      (engine.solver.reveal now request.solutionId request.auctionId).1 = .error error) :
    (engine.revealFor now request).1 = RefusalKind.solutionNotFound.response := by
  rw [revealFor_answer, revealed]

/-- Why nothing is revealed does not show in the answer. -/
theorem revealFor_congr {engine other : Engine} {now : Timestamp} {request : RevealRequest}
    (same : ∀ calldata,
      (engine.solver.reveal now request.solutionId request.auctionId).1 = .ok calldata ↔
        (other.solver.reveal now request.solutionId request.auctionId).1 = .ok calldata) :
    (engine.revealFor now request).1 = (other.revealFor now request).1 := by
  cases left : (engine.solver.reveal now request.solutionId request.auctionId).1 with
  | ok calldata => rw [revealFor_of_ok left, revealFor_of_ok ((same calldata).mp left)]
  | error error =>
      cases right : (other.solver.reveal now request.solutionId request.auctionId).1 with
      | error otherError => rw [revealFor_of_error left, revealFor_of_error right]
      | ok calldata =>
          rw [(same calldata).mpr right] at left
          cases left

theorem answer_reveal {engine : Engine} {now : Timestamp} {http : Http.Request}
    {request : RevealRequest} (path : http.path = "/reveal") (method : http.method = "POST")
    (decoded : Wire.decodeText Wire.revealRequest.decode http.body = .ok request) :
    engine.answer now http = engine.revealFor now request := by
  have on : Route.ofPath? http.path = some .reveal := by
    rw [path]
    decide
  rw [engine.answer_of_route now on method]
  simp only [answerOn, reveal, decoded]

theorem solverEvents_ordered (config : Config) {events : List Event} {now : Timestamp}
    (ordered : ∀ event ∈ events, now.moment.isBefore event.time.moment = false) :
    ∀ event ∈ solverEvents config events,
      now.moment.isBefore event.time.moment = false := by
  intro event member
  obtain ⟨source, sourceMember, asked⟩ := List.mem_filterMap.mp member
  obtain ⟨operation, -, rfl⟩ := Option.map_eq_some_iff.mp asked
  exact ordered source sourceMember

theorem run_remembers (config : Config) {events : List Event} {now : Timestamp}
    (ordered : ∀ event ∈ events, now.moment.isBefore event.time.moment = false)
    (room : ((start config).offers events).length < UInt64.size) :
    ((start config).run events).solver.Remembers now ((start config).offers events) := by
  obtain ⟨-, solver, offered⟩ := run_follows (start config) events
  rw [offered] at room ⊢
  rw [solver]
  exact Solver.run_fresh_remembers _ _ (solverEvents_ordered config ordered) room

theorem settlementContract_run (config : Config) (events : List Event) :
    ((start config).run events).solver.settlementContract = config.settlementContract := by
  rw [(run_follows (start config) events).2.1]
  exact Solver.settlementContract_run _ _

theorem retention_run (config : Config) (events : List Event) :
    ((start config).run events).solver.cache.retention = config.solutionRetention := by
  rw [(run_follows (start config) events).2.1]
  exact Solver.retention_run _ _

theorem reveal_of_revealable (config : Config) {events : List Event} {now : Timestamp}
    {id : UInt64} {auctionId : Int64} {offer : Offer}
    (ordered : ∀ event ∈ events, now.moment.isBefore event.time.moment = false)
    (room : ((start config).offers events).length < UInt64.size)
    (member : offer ∈ (start config).offers events)
    (revealable : offer.Revealable config.solutionRetention now id auctionId) :
    ∃ settlement,
      Settlement.ofSolution offer.candidate.solution config.settlementContract =
        .ok settlement ∧
      (((start config).run events).solver.reveal now id auctionId).1 =
        .ok (settlement.calldata auctionId) := by
  rw [← retention_run config events] at revealable
  rw [← settlementContract_run config events]
  exact (run_remembers config ordered room).reveal_of_revealable member revealable

theorem revealable_of_reveal (config : Config) {events : List Event} {now : Timestamp}
    {id : UInt64} {auctionId : Int64} {calldata : Calldata}
    (ordered : ∀ event ∈ events, now.moment.isBefore event.time.moment = false)
    (room : ((start config).offers events).length < UInt64.size)
    (revealed :
      (((start config).run events).solver.reveal now id auctionId).1 = .ok calldata) :
    ∃ offer ∈ (start config).offers events,
      offer.Revealable config.solutionRetention now id auctionId := by
  rw [← retention_run config events]
  exact (run_remembers config ordered room).revealable_of_reveal revealed

/-- Events are not seen by a later reveal if they return no candidate, or if the
identifier in question was returned before them. -/
theorem revealFor_skip (config : Config) {before between after : List Event}
    {now : Timestamp} {request : RevealRequest}
    (ordered : ∀ event ∈ before ++ between ++ after,
      now.moment.isBefore event.time.moment = false)
    (room : ((start config).offers (before ++ between ++ after)).length < UInt64.size)
    (apart : ((start config).run before).offers between = [] ∨
      ∃ offer ∈ (start config).offers before, offer.candidate.id = request.solutionId) :
    (((start config).run (before ++ between ++ after)).revealFor now request).1 =
      (((start config).run (before ++ after)).revealFor now request).1 := by
  obtain ⟨-, fullSolver, fullOffers⟩ := run_follows (start config) (before ++ between ++ after)
  obtain ⟨-, shortSolver, -⟩ := run_follows (start config) (before ++ after)
  obtain ⟨beforeConfig, beforeSolver, beforeOffers⟩ := run_follows (start config) before
  rw [(run_follows ((start config).run before) between).2.2, beforeConfig, beforeSolver,
    beforeOffers] at apart
  have orderedSolver := solverEvents_ordered config ordered
  rw [fullOffers] at room
  apply revealFor_congr
  rw [fullSolver, shortSolver]
  simp only [solverEvents_append] at room orderedSolver ⊢
  exact Solver.reveal_skip config.settlementContract config.solutionRetention
    request.auctionId orderedSolver room apart

/-- Of all runs in which no reading of the clock lies after the present one: a reveal
succeeds exactly for a candidate returned before that can still be revealed for the
auction, with the calldata of the candidate's own settlement. Everything else is refused
with one answer. Events between others show in no answer, neither those that return no
candidate nor those after the candidate in question. -/
theorem reveal_determined_by_offers (config : Config) (events : List Event)
    (now : Timestamp) (request : RevealRequest)
    (ordered : ∀ event ∈ events, now.moment.isBefore event.time.moment = false)
    (room : ((start config).offers events).length < UInt64.size) :
    let engine := (start config).run events
    let revealed := (engine.solver.reveal now request.solutionId request.auctionId).1
    let answer := (engine.revealFor now request).1
    let revealable := fun offer : Offer => offer ∈ (start config).offers events ∧
      offer.Revealable config.solutionRetention now request.solutionId request.auctionId
    ((∃ calldata, revealed = .ok calldata) ↔ ∃ offer, revealable offer) ∧
      (∀ offer, revealable offer → ∃ settlement,
        Settlement.ofSolution offer.candidate.solution config.settlementContract =
            .ok settlement ∧
          revealed = .ok (settlement.calldata request.auctionId) ∧
          answer = success (Wire.revealResponse.encode
            ⟨settlement.calldata request.auctionId⟩)) ∧
      ((¬ ∃ offer, revealable offer) →
        (∃ cause, revealed = .error (.notFound cause)) ∧
          answer = RefusalKind.solutionNotFound.response ∧ answer.status = 404) ∧
      (∀ http : Http.Request, http.path = "/reveal" → http.method = "POST" →
        Wire.decodeText Wire.revealRequest.decode http.body = .ok request →
        (engine.answer now http).1 = answer) ∧
      ∀ before between after, events = before ++ between ++ after →
        (((start config).run before).offers between = [] ∨
          ∃ offer ∈ (start config).offers before,
            offer.candidate.id = request.solutionId) →
        (((start config).run (before ++ after)).revealFor now request).1 = answer := by
  intro engine revealed answer revealable
  refine ⟨⟨?_, ?_⟩, ?_, ?_, ?_, ?_⟩
  · rintro ⟨calldata, found⟩
    exact revealable_of_reveal config ordered room found
  · rintro ⟨offer, member, can⟩
    obtain ⟨settlement, -, found⟩ := reveal_of_revealable config ordered room member can
    exact ⟨_, found⟩
  · rintro offer ⟨member, can⟩
    obtain ⟨settlement, settled, found⟩ := reveal_of_revealable config ordered room member can
    exact ⟨settlement, settled, found, revealFor_of_ok found⟩
  · intro nothing
    cases found : revealed with
    | ok calldata =>
        exact absurd (revealable_of_reveal config ordered room found) nothing
    | error error =>
        obtain ⟨cause⟩ := error
        have refused : answer = RefusalKind.solutionNotFound.response :=
          revealFor_of_error found
        exact ⟨⟨cause, rfl⟩, refused, by rw [refused]; rfl⟩
  · intro http path method decoded
    rw [answer_reveal path method decoded]
  · rintro before between after rfl apart
    exact (revealFor_skip config ordered room apart).symm

/-- A sweep and a settle request come between, and the deadline is the last one there is. -/
theorem reveal_after_sweep_and_settle :
    let events : List Event := [
      ⟨.first, .solve (fun _ => [.idle]) (.idle (some 7) .last)⟩,
      ⟨.first, .sweep⟩,
      ⟨.first, .settle ⟨0, 100, 7⟩⟩]
    (∀ event ∈ events, Timestamp.first.moment.isBefore event.time.moment = false) ∧
      ((start .standard).offers events).length < UInt64.size ∧
      ∃ calldata, (((start .standard).run events).solver.reveal .first 0 7).1 = .ok calldata := by
  intro events
  have ordered : ∀ event ∈ events, Timestamp.first.moment.isBefore event.time.moment = false := by
    decide
  have room : ((start .standard).offers events).length < UInt64.size := by decide
  refine ⟨ordered, room, ?_⟩
  apply (reveal_determined_by_offers .standard events .first ⟨0, 7⟩ ordered room).1.mpr
  refine ⟨⟨.idle (some 7) .last, 0, .idle⟩, List.mem_cons_self, rfl, .inr rfl, ?_⟩
  decide

end Engine

end BatchAuction
