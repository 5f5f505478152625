import BatchAuction.Proofs.Solver.Reveal

/-!
# Interleaved operations

What a run offers does not depend on the entries of the cache. So events without an
offer can be left out of a run, and any event can after the offer in question: a reveal
finds the same.
-/

set_option autoImplicit false

namespace BatchAuction

open Clock

namespace Solver

/-- The identifiers that solving hands out depend on the counter alone. -/
theorem register_congr (auction : Auction) {cache other : SolutionCache}
    (sameId : cache.nextId = other.nextId) (settled : List Settled) :
    (register auction cache settled).1 = (register auction other settled).1 ∧
      (register auction cache settled).2.nextId =
        (register auction other settled).2.nextId := by
  induction settled generalizing cache other with
  | nil => exact ⟨rfl, sameId⟩
  | cons pair rest ih =>
      have advanced : (cache.takeId.2.insert cache.nextId
            ⟨auction.id, auction.deadline, pair.2, none⟩).nextId =
          (other.takeId.2.insert other.nextId
            ⟨auction.id, auction.deadline, pair.2, none⟩).nextId :=
        congrArg (· + 1) sameId
      obtain ⟨candidates, nextId⟩ := ih advanced
      refine ⟨?_, nextId⟩
      simp only [register, SolutionCache.takeId, SolutionCache.insert] at candidates ⊢
      rw [candidates, sameId]

theorem perform_congr {solver other : Solver}
    (sameContract : solver.settlementContract = other.settlementContract)
    (sameId : solver.cache.nextId = other.cache.nextId) (event : Event) :
    solver.offersOf event.operation = other.offersOf event.operation ∧
      (solver.perform event).cache.nextId = (other.perform event).cache.nextId := by
  obtain ⟨time, operation⟩ := event
  cases operation with
  | solve strategy auction =>
      cases result : settleAll other.settlementContract (strategy auction) with
      | error error =>
          simp only [offersOf, perform, solve, sameContract, result]
          exact ⟨trivial, sameId⟩
      | ok settled =>
          obtain ⟨candidates, nextId⟩ := register_congr auction sameId settled
          simp only [offersOf, perform, solve, sameContract, result, candidates]
          exact ⟨trivial, nextId⟩
  | reveal id auctionId =>
      have left := (solver.cache.settlement_trims time id auctionId).nextId_eq
      have right := (other.cache.settlement_trims time id auctionId).nextId_eq
      exact ⟨rfl, left.trans (sameId.trans right.symm)⟩
  | settle id intent =>
      have left := (solver.cache.recordSettle_trims time id intent).nextId_eq
      have right := (other.cache.recordSettle_trims time id intent).nextId_eq
      exact ⟨rfl, left.trans (sameId.trans right.symm)⟩
  | sweep => exact ⟨rfl, sameId⟩

/-- What a run offers depends on the contract and the counter it starts with, not on
the entries of the cache. -/
theorem offers_congr {solver other : Solver}
    (sameContract : solver.settlementContract = other.settlementContract)
    (sameId : solver.cache.nextId = other.cache.nextId) (events : List Event) :
    solver.offers events = other.offers events := by
  induction events generalizing solver other with
  | nil => rfl
  | cons event rest ih =>
      obtain ⟨offered, nextId⟩ := perform_congr sameContract sameId event
      have carried : (solver.perform event).settlementContract =
          (other.perform event).settlementContract := by
        rw [settlementContract_perform, settlementContract_perform, sameContract]
      rw [offers, offers, offered, ih carried nextId]

theorem nextId_run_of_offers_eq_nil {solver : Solver} {events : List Event}
    (none : solver.offers events = []) :
    (solver.run events).cache.nextId = solver.cache.nextId := by
  induction events generalizing solver with
  | nil => rfl
  | cons event rest ih =>
      rw [offers, List.append_eq_nil_iff] at none
      obtain ⟨first, others⟩ := none
      refine (ih others).trans ?_
      rcases solver.perform_cases event with ⟨-, cache, trimmed, result⟩ |
        ⟨strategy, auction, settled, -, -, offered, result⟩
      · rw [result]
        exact trimmed.nextId_eq
      · rw [first] at offered
        have unsettled : settled = [] := by
          apply List.eq_nil_of_length_eq_zero
          rw [← length_register auction solver.cache, List.map_eq_nil_iff.mp offered.symm]
          rfl
        rw [result, unsettled]
        rfl

/-- Events without an offer do not change what the others offer. -/
theorem offers_skip {solver : Solver} {before between : List Event}
    (none : (solver.run before).offers between = []) (after : List Event) :
    solver.offers (before ++ between ++ after) = solver.offers (before ++ after) := by
  rw [offers_append, offers_append, offers_append, none, List.append_nil, run_append]
  rw [offers_congr (settlementContract_run _ between) (nextId_run_of_offers_eq_nil none)]

/-- How many candidates a run offers depends on the contract alone. -/
theorem length_offers_congr {solver other : Solver}
    (sameContract : solver.settlementContract = other.settlementContract)
    (events : List Event) :
    (solver.offers events).length = (other.offers events).length := by
  induction events generalizing solver other with
  | nil => rfl
  | cons event rest ih =>
      have offered : (solver.offersOf event.operation).length =
          (other.offersOf event.operation).length := by
        cases operation : event.operation with
        | solve strategy auction =>
            cases result : settleAll other.settlementContract (strategy auction) with
            | error error => simp only [offersOf, solve, sameContract, result]
            | ok settled =>
                have accepted : settleAll solver.settlementContract (strategy auction) =
                    .ok settled := by rw [sameContract]; exact result
                rw [length_offersOf_solve result, length_offersOf_solve accepted]
        | reveal id auctionId => rfl
        | settle id intent => rfl
        | sweep => rfl
      have carried : (solver.perform event).settlementContract =
          (other.perform event).settlementContract := by
        rw [settlementContract_perform, settlementContract_perform, sameContract]
      rw [offers, offers, List.length_append, List.length_append, offered, ih carried]

/-- A reveal does not tell solvers apart that offered the same under its identifier. -/
theorem Remembers.reveal_ok_congr {solver other : Solver} {offers others : List Offer}
    {now : Timestamp} {id : UInt64} {auctionId : Int64} {calldata : Calldata}
    (remembers : solver.Remembers now offers) (otherRemembers : other.Remembers now others)
    (sameContract : other.settlementContract = solver.settlementContract)
    (sameRetention : other.cache.retention = solver.cache.retention)
    (sameOffers : ∀ offer, offer.id = id → offer ∈ offers → offer ∈ others)
    (revealed : (solver.reveal now id auctionId).1 = .ok calldata) :
    (other.reveal now id auctionId).1 = .ok calldata := by
  obtain ⟨offer, member, revealable⟩ := remembers.revealable_of_reveal revealed
  obtain ⟨settlement, settled, first⟩ := remembers.reveal_of_revealable member revealable
  have otherMember := sameOffers offer revealable.id_eq member
  rw [← sameRetention] at revealable
  obtain ⟨otherSettlement, otherSettled, second⟩ :=
    otherRemembers.reveal_of_revealable otherMember revealable
  rw [sameContract, settled] at otherSettled
  cases otherSettled
  rw [revealed] at first
  rw [second, ← first]

variable (contract : Address) (retention : Duration) {before between after : List Event}
  {now : Timestamp} {id : UInt64}

/-- Leaving events out between others takes away no room for identifiers. -/
theorem length_offers_skip_le (solver : Solver) :
    (solver.offers (before ++ after)).length ≤
      (solver.offers (before ++ between ++ after)).length := by
  have sameContract : ((solver.run before).run between).settlementContract =
      (solver.run before).settlementContract := settlementContract_run _ between
  rw [offers_append, offers_append, offers_append, run_append, List.length_append,
    List.length_append, List.length_append, length_offers_congr sameContract]
  omega

/-- Events between others do not change what is offered under an identifier if they
make no offer, or if it was offered before them. -/
theorem mem_offers_skip_iff
    (room : ((fresh contract retention).offers (before ++ between ++ after)).length <
      UInt64.size)
    (apart : ((fresh contract retention).run before).offers between = [] ∨
      ∃ offer ∈ (fresh contract retention).offers before, offer.id = id)
    (offer : Offer) (numbered : offer.id = id) :
    offer ∈ (fresh contract retention).offers (before ++ between ++ after) ↔
      offer ∈ (fresh contract retention).offers (before ++ after) := by
  rcases apart with none | ⟨first, member, same⟩
  · rw [offers_skip none]
  · have full := run_fresh_accounts contract retention (before ++ between ++ after) room
    have shortened := run_fresh_accounts contract retention (before ++ after)
      (Nat.lt_of_le_of_lt (length_offers_skip_le _) room)
    have inFull : first ∈ (fresh contract retention).offers (before ++ between ++ after) := by
      rw [offers_append, offers_append]
      exact List.mem_append_left _ (List.mem_append_left _ member)
    have inShortened : first ∈ (fresh contract retention).offers (before ++ after) := by
      rw [offers_append]
      exact List.mem_append_left _ member
    have agreed : offer.id = first.id := numbered.trans same.symm
    constructor
    · intro offered
      rw [full.offer_unique offered inFull agreed]
      exact inShortened
    · intro offered
      rw [shortened.offer_unique offered inShortened agreed]
      exact inFull

/-- A reveal finds the same with and without such events. -/
theorem reveal_skip (auctionId : Int64)
    (ordered : ∀ event ∈ before ++ between ++ after,
      now.moment.isBefore event.time.moment = false)
    (room : ((fresh contract retention).offers (before ++ between ++ after)).length <
      UInt64.size)
    (apart : ((fresh contract retention).run before).offers between = [] ∨
      ∃ offer ∈ (fresh contract retention).offers before, offer.id = id)
    (calldata : Calldata) :
    (((fresh contract retention).run (before ++ between ++ after)).reveal now id auctionId).1 =
        .ok calldata ↔
      (((fresh contract retention).run (before ++ after)).reveal now id auctionId).1 =
        .ok calldata := by
  have orderedShort : ∀ event ∈ before ++ after,
      now.moment.isBefore event.time.moment = false := by
    intro event member
    apply ordered
    rcases List.mem_append.mp member with early | late
    · exact List.mem_append_left _ (List.mem_append_left _ early)
    · exact List.mem_append_right _ late
  have full := run_fresh_remembers contract retention ordered room
  have shortened := run_fresh_remembers contract retention orderedShort
    (Nat.lt_of_le_of_lt (length_offers_skip_le _) room)
  have sameOffers := mem_offers_skip_iff contract retention room apart
  constructor
  · exact full.reveal_ok_congr shortened (by simp only [settlementContract_run])
      (by simp only [retention_run]) fun offer numbered => (sameOffers offer numbered).mp
  · exact shortened.reveal_ok_congr full (by simp only [settlementContract_run])
      (by simp only [retention_run]) fun offer numbered => (sameOffers offer numbered).mpr

end Solver

end BatchAuction
