import BatchAuction.Proofs.Solver.Run
import Mathlib.Data.List.Nodup

/-!
# Identifiers of offers

A cache accounts for the offers made so far: its counter is their number, they are
numbered from zero in their order, and every entry belongs to the offer of its
identifier. So an identifier is never used again, and nothing is overwritten.
-/

set_option autoImplicit false

namespace BatchAuction

open Clock

def Solution.idle : Solution := ⟨.empty, [], [], none⟩

/-- An auction in which there is nothing to trade. -/
def Auction.idle (id : Option Int64) (deadline : Timestamp) : Auction :=
  ⟨id, .empty, [], [], .zero, deadline⟩

/-- An entry holds an offer: its auction, its deadline and the settlement of its
solution, whatever the intent. -/
structure CacheEntry.Holds (entry : CacheEntry) (contract : Address) (offer : Offer) :
    Prop where
  auctionId_eq : entry.auctionId = offer.auction.id
  deadline_eq : entry.deadline = offer.auction.deadline
  settlement_eq : Settlement.ofSolution offer.candidate.solution contract = .ok entry.settlement

theorem CacheEntry.Holds.of_agreesWith {entry former : CacheEntry} {contract : Address}
    {offer : Offer} (holds : former.Holds contract offer) (agrees : entry.AgreesWith former) :
    entry.Holds contract offer := by
  rw [agrees]
  exact ⟨holds.auctionId_eq, holds.deadline_eq, holds.settlement_eq⟩

namespace SolutionCache

/-- The cache agrees with the offers made so far. -/
structure Accounts (cache : SolutionCache) (contract : Address) (offers : List Offer) :
    Prop where
  nextId_eq : cache.nextId.toNat = offers.length
  ids_eq : offers.map (fun offer => offer.id.toNat) = List.range offers.length
  held : ∀ {id entry}, cache.get? id = some entry →
    ∃ offer ∈ offers, offer.id = id ∧ entry.Holds contract offer

theorem accounts_empty (contract : Address) (retention : Duration) :
    (empty retention).Accounts contract [] where
  nextId_eq := rfl
  ids_eq := rfl
  held found := by rw [get?_empty] at found; cases found

namespace Accounts

variable {cache after : SolutionCache} {contract : Address} {offers : List Offer}

theorem offer_id_lt (accounts : cache.Accounts contract offers) {offer : Offer}
    (member : offer ∈ offers) : offer.id.toNat < offers.length := by
  have numbered : offer.id.toNat ∈ offers.map fun offer => offer.id.toNat :=
    List.mem_map.mpr ⟨offer, member, rfl⟩
  rw [accounts.ids_eq] at numbered
  exact List.mem_range.mp numbered

theorem id_lt (accounts : cache.Accounts contract offers) {id : UInt64} {entry : CacheEntry}
    (found : cache.get? id = some entry) : id < cache.nextId := by
  obtain ⟨offer, member, rfl, -⟩ := accounts.held found
  rw [UInt64.lt_iff_toNat_lt, accounts.nextId_eq]
  exact accounts.offer_id_lt member

theorem get?_nextId (accounts : cache.Accounts contract offers) :
    cache.get? cache.nextId = none := by
  cases found : cache.get? cache.nextId with
  | none => rfl
  | some entry => exact absurd (accounts.id_lt found) (UInt64.lt_irrefl _)

/-- No two offers share an identifier. -/
theorem offer_unique (accounts : cache.Accounts contract offers) {offer other : Offer}
    (member : offer ∈ offers) (otherMember : other ∈ offers) (same : offer.id = other.id) :
    offer = other := by
  have unique : (offers.map fun offer => offer.id.toNat).Nodup := by
    rw [accounts.ids_eq]
    exact List.nodup_range
  exact List.inj_on_of_nodup_map unique member otherMember (congrArg UInt64.toNat same)

theorem trims (accounts : cache.Accounts contract offers) {now : Timestamp}
    (trimmed : cache.Trims now after) : after.Accounts contract offers where
  nextId_eq := by rw [trimmed.nextId_eq]; exact accounts.nextId_eq
  ids_eq := accounts.ids_eq
  held found := by
    obtain ⟨former, present, agrees⟩ := trimmed.kept found
    obtain ⟨offer, member, numbered, holds⟩ := accounts.held present
    exact ⟨offer, member, numbered, holds.of_agreesWith agrees⟩

/-- An offer under the next identifier, kept as solving keeps it. -/
theorem insert (accounts : cache.Accounts contract offers)
    (room : offers.length + 1 < UInt64.size) (auction : Auction) {solution : Solution}
    {settlement : Settlement}
    (settled : Settlement.ofSolution solution contract = .ok settlement) :
    (cache.takeId.2.insert cache.nextId
        ⟨auction.id, auction.deadline, settlement, none⟩).Accounts contract
      (offers ++ [⟨auction, cache.nextId, solution⟩]) where
  nextId_eq := by
    show (cache.nextId + 1).toNat = _
    rw [UInt64.toNat_add, accounts.nextId_eq, List.length_append]
    exact Nat.mod_eq_of_lt room
  ids_eq := by
    rw [List.map_append, accounts.ids_eq, List.length_append]
    show List.range offers.length ++ [cache.nextId.toNat] = List.range (offers.length + 1)
    rw [accounts.nextId_eq, List.range_succ]
  held {id entry} found := by
    rw [get?_insert] at found
    split at found
    · rename_i same
      cases found
      exact ⟨_, List.mem_append_right _ List.mem_cons_self, same.symm, rfl, rfl, settled⟩
    · obtain ⟨offer, member, numbered, holds⟩ := accounts.held found
      exact ⟨offer, List.mem_append_left _ member, numbered, holds⟩

/-- The induction is on the settled solutions, each of which takes one identifier. -/
theorem register (accounts : cache.Accounts contract offers) (auction : Auction)
    (settled : List Solver.Settled) (room : offers.length + settled.length < UInt64.size)
    (allSettled : ∀ pair ∈ settled, Settlement.ofSolution pair.1 contract = .ok pair.2) :
    (Solver.register auction cache settled).2.Accounts contract
      (offers ++ (Solver.register auction cache settled).1.map (Offer.mk auction)) := by
  induction settled generalizing cache offers with
  | nil => simpa [Solver.register] using accounts
  | cons pair rest ih =>
      obtain ⟨solution, settlement⟩ := pair
      rw [List.length_cons] at room
      have one := accounts.insert (by omega) auction (allSettled _ List.mem_cons_self)
      have others := ih one (by rw [List.length_append, List.length_singleton]; omega)
        fun pair member => allSettled pair (List.mem_cons_of_mem _ member)
      rw [List.append_assoc] at others
      exact others

end Accounts

end SolutionCache

namespace Solver

variable {solver : Solver} {offers : List Offer}

theorem perform_accounts
    (accounts : solver.cache.Accounts solver.settlementContract offers) (event : Event)
    (room : offers.length + (solver.offersOf event.operation).length < UInt64.size) :
    (solver.perform event).cache.Accounts solver.settlementContract
      (offers ++ solver.offersOf event.operation) := by
  rcases solver.perform_cases event with ⟨none, cache, trimmed, result⟩ |
    ⟨strategy, auction, settled, -, accepted, offered, result⟩
  · rw [none, result, List.append_nil]
    exact accounts.trims trimmed
  · rw [offered, List.length_map, length_register] at room
    rw [offered, result]
    exact accounts.register auction settled room (settleAll_settled accepted)

/-- The cache accounts for the offers of a run while there are identifiers left. -/
theorem run_accounts
    (accounts : solver.cache.Accounts solver.settlementContract offers) (events : List Event)
    (room : offers.length + (solver.offers events).length < UInt64.size) :
    (solver.run events).cache.Accounts solver.settlementContract
      (offers ++ solver.offers events) := by
  induction events generalizing solver offers with
  | nil => simpa [run, Solver.offers] using accounts
  | cons event rest ih =>
      rw [Solver.offers, List.length_append] at room
      have one := perform_accounts accounts event (by omega)
      rw [← solver.settlementContract_perform event] at one
      have others := ih one (by rw [List.length_append]; omega)
      rw [settlementContract_perform, List.append_assoc] at others
      exact others

theorem run_fresh_accounts (contract : Address) (retention : Duration) (events : List Event)
    (room : ((fresh contract retention).offers events).length < UInt64.size) :
    ((fresh contract retention).run events).cache.Accounts contract
      ((fresh contract retention).offers events) := by
  have started : (fresh contract retention).cache.Accounts contract [] :=
    SolutionCache.accounts_empty contract retention
  have reached := run_accounts started events (by rw [List.length_nil, Nat.zero_add]; exact room)
  rw [List.nil_append] at reached
  exact reached

/-- When solving puts an entry in, its identifier is free. -/
theorem get?_nextId_register (contract : Address) (retention : Duration)
    {before after : List Event} {time : Timestamp} {strategy : Strategy} {auction : Auction}
    {kept rest : List Settled} {next : Settled}
    (room : ((fresh contract retention).offers
      (before ++ ⟨time, .solve strategy auction⟩ :: after)).length < UInt64.size)
    (accepted : settleAll contract (strategy auction) = .ok (kept ++ next :: rest)) :
    let reached := (register auction ((fresh contract retention).run before).cache kept).2
    reached.get? reached.nextId = none := by
  have sameContract : ((fresh contract retention).run before).settlementContract = contract :=
    settlementContract_run _ before
  rw [← sameContract] at accepted
  rw [offers_append, offers, List.length_append, List.length_append,
    length_offersOf_solve accepted, List.length_append, List.length_cons] at room
  have reached := run_fresh_accounts contract retention before (by omega)
  have kept_accounts := reached.register auction kept (by omega)
    fun pair member => sameContract ▸
      settleAll_settled accepted pair (List.mem_append_left _ member)
  exact kept_accounts.get?_nextId

/-- Over a whole run the offers are numbered from zero without gap or repetition, also
those whose entries are gone. Every key of the cache lies below the counter, no solving
of the run puts an entry under a key in use, and every entry still holds its offer. -/
theorem identifiers_never_reused (contract : Address) (retention : Duration)
    (events : List Event)
    (room : ((fresh contract retention).offers events).length < UInt64.size) :
    let start := fresh contract retention
    let cache := (start.run events).cache
    ((start.offers events).map fun offer => offer.candidate.id.toNat) =
        List.range (start.offers events).length ∧
      (∀ id entry, (id, entry) ∈ cache.entries → id < cache.nextId) ∧
      (∀ before time strategy auction after,
        events = before ++ ⟨time, .solve strategy auction⟩ :: after →
        ∀ kept next rest,
          settleAll contract (strategy auction) = .ok (kept ++ next :: rest) →
          let reached := (register auction (start.run before).cache kept).2
          reached.get? reached.nextId = none) ∧
      ∀ id entry, (id, entry) ∈ cache.entries →
        ∃ offer ∈ start.offers events, offer.candidate.id = id ∧
          entry.auctionId = offer.auction.id ∧ entry.deadline = offer.auction.deadline ∧
          Settlement.ofSolution offer.candidate.solution contract = .ok entry.settlement := by
  intro start cache
  have accounts := run_fresh_accounts contract retention events room
  refine ⟨accounts.ids_eq, ?_, ?_, ?_⟩
  · intro id entry member
    exact accounts.id_lt (SolutionCache.get?_eq_some_iff.mpr member)
  · rintro before time strategy auction after rfl kept next rest accepted
    exact get?_nextId_register contract retention room accepted
  · intro id entry member
    obtain ⟨offer, offered, numbered, holds⟩ :=
      accounts.held (SolutionCache.get?_eq_some_iff.mpr member)
    exact ⟨offer, offered, numbered, holds.auctionId_eq, holds.deadline_eq,
      holds.settlement_eq⟩

/-- Identifiers go on after a sweep that leaves nothing behind. -/
theorem identifiers_go_on_after_sweep :
    let events : List Event := [
      ⟨.first, .solve (fun _ => [.idle, .idle]) (.idle none .first)⟩,
      ⟨.last, .sweep⟩,
      ⟨.last, .solve (fun _ => [.idle]) (.idle none .last)⟩]
    let start := fresh .zero .zero
    (start.offers events).length < UInt64.size ∧
      (start.run events).cache.size = 1 ∧
      ((start.offers events).map fun offer => offer.candidate.id.toNat) =
        List.range (start.offers events).length := by
  intro events start
  have room : (start.offers events).length < UInt64.size := by decide
  exact ⟨room, by decide, (identifiers_never_reused .zero .zero events room).1⟩

end Solver

end BatchAuction
