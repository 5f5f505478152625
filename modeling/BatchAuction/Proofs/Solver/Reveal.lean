import BatchAuction.Proofs.Clock.Order
import BatchAuction.Proofs.Solver.Identifiers

/-!
# Which offers are revealed

A cache retains an offer until its deadline and the retention are over, whatever else
is done to it. So what a reveal finds depends on the offers and on the clock alone:
it does not show when an entry whose time is over is removed.
-/

set_option autoImplicit false

namespace BatchAuction

open Clock

/-- An offer can be revealed under an identifier for an auction: it has the identifier,
its own auction is this one or has no identifier, and the end of the retention after its
deadline is out of reach or not before the present. -/
structure Offer.Revealable (offer : Offer) (retention : Duration) (now : Timestamp)
    (id : UInt64) (auctionId : Int64) : Prop where
  id_eq : offer.candidate.id = id
  belongs : offer.auction.id = none ∨ offer.auction.id = some auctionId
  live : ∀ final, offer.auction.deadline.graceEnd? retention = some final →
    final.isBefore now.moment = false

theorem CacheEntry.Holds.belongsTo_iff {entry : CacheEntry} {contract : Address}
    {offer : Offer} (holds : entry.Holds contract offer) (auctionId : Int64) :
    SolutionCache.belongsTo entry auctionId = true ↔
      offer.auction.id = none ∨ offer.auction.id = some auctionId := by
  unfold SolutionCache.belongsTo
  rw [holds.auctionId_eq]
  cases offer.auction.id <;> simp

theorem CacheEntry.Holds.isExpired_eq {entry : CacheEntry} {contract : Address}
    {offer : Offer} (holds : entry.Holds contract offer) (cache : SolutionCache)
    (now : Timestamp) :
    cache.isExpired now entry = offer.auction.deadline.expired cache.retention now := by
  unfold SolutionCache.isExpired
  rw [holds.deadline_eq]

namespace SolutionCache

/-- Every offer that is not over at a time has an entry. -/
def Retains (cache : SolutionCache) (now : Timestamp) (offers : List Offer) : Prop :=
  ∀ offer ∈ offers, offer.auction.deadline.expired cache.retention now = false →
    ∃ entry, cache.get? offer.id = some entry

namespace Retains

variable {cache after : SolutionCache} {contract : Address} {offers : List Offer}
  {now : Timestamp}

/-- What is removed at an earlier time was over then, and so it is over now. -/
theorem trims (retains : cache.Retains now offers) (accounts : cache.Accounts contract offers)
    {time : Timestamp} (trimmed : cache.Trims time after)
    (ordered : now.moment.isBefore time.moment = false) : after.Retains now offers := by
  intro offer member live
  rw [trimmed.retention_eq] at live
  obtain ⟨entry, found⟩ := retains offer member live
  cases remaining : after.get? offer.id with
  | some kept => exact ⟨kept, rfl⟩
  | none =>
      have overdue := trimmed.gone found remaining
      obtain ⟨other, otherMember, same, holds⟩ := accounts.held found
      rw [accounts.offer_unique otherMember member same] at holds
      rw [holds.isExpired_eq] at overdue
      rw [Timestamp.expired_of_not_isBefore overdue ordered] at live
      cases live

theorem insert (retains : cache.Retains now offers) (auction : Auction) (solution : Solution)
    (entry : CacheEntry) :
    (cache.takeId.2.insert cache.nextId entry).Retains now
      (offers ++ [⟨auction, cache.nextId, solution⟩]) := by
  intro offer member live
  rw [get?_insert]
  split
  · exact ⟨entry, rfl⟩
  · rename_i different
    rcases List.mem_append.mp member with member | last
    · exact retains offer member live
    · rw [List.mem_singleton.mp last] at different
      exact absurd rfl different

theorem register (retains : cache.Retains now offers) (auction : Auction)
    (settled : List Solver.Settled) :
    (Solver.register auction cache settled).2.Retains now
      (offers ++ (Solver.register auction cache settled).1.map (Offer.mk auction)) := by
  induction settled generalizing cache offers with
  | nil => simpa [Solver.register] using retains
  | cons pair rest ih =>
      have others := ih (retains.insert auction pair.1 ⟨auction.id, auction.deadline, pair.2, none⟩)
      rw [List.append_assoc] at others
      exact others

end Retains

end SolutionCache

namespace Solver

variable {solver : Solver} {offers : List Offer} {now : Timestamp}

theorem perform_retains (accounts : solver.cache.Accounts solver.settlementContract offers)
    (retains : solver.cache.Retains now offers) (event : Event)
    (ordered : now.moment.isBefore event.time.moment = false) :
    (solver.perform event).cache.Retains now (offers ++ solver.offersOf event.operation) := by
  rcases solver.perform_cases event with ⟨none, cache, trimmed, result⟩ |
    ⟨strategy, auction, settled, -, -, offered, result⟩
  · rw [none, result, List.append_nil]
    exact retains.trims accounts trimmed ordered
  · rw [offered, result]
    exact retains.register auction settled

/-- Up to a time, a run retains every offer that is not over at that time. -/
theorem run_retains (accounts : solver.cache.Accounts solver.settlementContract offers)
    (retains : solver.cache.Retains now offers) (events : List Event)
    (ordered : ∀ event ∈ events, now.moment.isBefore event.time.moment = false)
    (room : offers.length + (solver.offers events).length < UInt64.size) :
    (solver.run events).cache.Retains now (offers ++ solver.offers events) := by
  induction events generalizing solver offers with
  | nil => simpa [run, Solver.offers] using retains
  | cons event rest ih =>
      rw [Solver.offers, List.length_append] at room
      have oneAccounts := perform_accounts accounts event (by omega)
      have oneRetains := perform_retains accounts retains event (ordered event List.mem_cons_self)
      rw [← solver.settlementContract_perform event] at oneAccounts
      have others := ih oneAccounts oneRetains
        (fun later member => ordered later (List.mem_cons_of_mem _ member))
        (by rw [List.length_append]; omega)
      rw [List.append_assoc] at others
      exact others

/-- A solver remembers the offers made so far as long as they can be revealed. -/
structure Remembers (solver : Solver) (now : Timestamp) (offers : List Offer) : Prop where
  accounts : solver.cache.Accounts solver.settlementContract offers
  retains : solver.cache.Retains now offers

theorem run_fresh_remembers (contract : Address) (retention : Duration) {events : List Event}
    (ordered : ∀ event ∈ events, now.moment.isBefore event.time.moment = false)
    (room : ((fresh contract retention).offers events).length < UInt64.size) :
    ((fresh contract retention).run events).Remembers now
      ((fresh contract retention).offers events) where
  accounts := by
    rw [settlementContract_run]
    exact run_fresh_accounts contract retention events room
  retains := by
    have started : (fresh contract retention).cache.Accounts contract [] :=
      SolutionCache.accounts_empty contract retention
    have nothing : (fresh contract retention).cache.Retains now [] := by
      intro offer member
      cases member
    have reached := run_retains started nothing events ordered
      (by rw [List.length_nil, Nat.zero_add]; exact room)
    rw [List.nil_append] at reached
    exact reached

theorem reveal_eq (solver : Solver) (now : Timestamp) (id : UInt64) (auctionId : Int64) :
    (solver.reveal now id auctionId).1 =
      match (solver.cache.lookup now id auctionId).1 with
      | .ok entry => .ok (entry.settlement.calldata auctionId)
      | .error error => .error (.notFound error) := by
  unfold reveal SolutionCache.settlement
  rcases solver.cache.lookup now id auctionId with ⟨error | entry, cache⟩ <;> rfl

/-- An offer that can be revealed is revealed with the calldata of its own settlement. -/
theorem Remembers.reveal_of_revealable (remembers : solver.Remembers now offers)
    {offer : Offer} (member : offer ∈ offers) {id : UInt64} {auctionId : Int64}
    (revealable : offer.Revealable solver.cache.retention now id auctionId) :
    ∃ settlement,
      Settlement.ofSolution offer.candidate.solution solver.settlementContract =
        .ok settlement ∧
      (solver.reveal now id auctionId).1 = .ok (settlement.calldata auctionId) := by
  have live := Timestamp.expired_eq_false_iff.mpr revealable.live
  obtain ⟨entry, found⟩ := remembers.retains offer member live
  obtain ⟨other, otherMember, same, holds⟩ := remembers.accounts.held found
  rw [remembers.accounts.offer_unique otherMember member same] at holds
  have looked : (solver.cache.lookup now id auctionId).1 = .ok entry := by
    rw [SolutionCache.lookup_ok_iff]
    refine ⟨?_, ?_, (holds.belongsTo_iff auctionId).mpr revealable.belongs⟩
    · rw [← revealable.id_eq]
      exact found
    · rw [holds.isExpired_eq]
      exact live
  refine ⟨entry.settlement, holds.settlement_eq, ?_⟩
  rw [reveal_eq, looked]

/-- Nothing is revealed but an offer that can be. -/
theorem Remembers.revealable_of_reveal (remembers : solver.Remembers now offers) {id : UInt64}
    {auctionId : Int64} {calldata : Calldata}
    (revealed : (solver.reveal now id auctionId).1 = .ok calldata) :
    ∃ offer ∈ offers, offer.Revealable solver.cache.retention now id auctionId := by
  rw [reveal_eq] at revealed
  cases looked : (solver.cache.lookup now id auctionId).1 with
  | error error => rw [looked] at revealed; cases revealed
  | ok entry =>
      obtain ⟨found, live, belongs⟩ := SolutionCache.lookup_ok_iff.mp looked
      obtain ⟨offer, member, same, holds⟩ := remembers.accounts.held found
      rw [holds.isExpired_eq] at live
      exact ⟨offer, member, same, (holds.belongsTo_iff auctionId).mp belongs,
        Timestamp.expired_eq_false_iff.mp live⟩

end Solver

end BatchAuction
