import BatchAuction.Proofs.Cache.Conservation
import BatchAuction.Proofs.Settlement.Tokens
import BatchAuction.Proofs.Solver.Identifiers

/-!
# All solutions or none

Solving settles all solutions of a strategy before it keeps one. If one of them cannot be
settled, the solver stays as it was; otherwise each gets the identifier of its place, and
the cache gains one entry for each.
-/

set_option autoImplicit false

namespace BatchAuction

open Clock

namespace Solver

variable {contract : Address} {solutions : List Solution}

/-!
## Settling
-/

theorem settleAll_of_failing {earlier later : List Solution} {failing : Solution}
    {error : SettlementError}
    (settles : ∀ solution ∈ earlier,
      ∃ settlement, Settlement.ofSolution solution contract = .ok settlement)
    (fails : Settlement.ofSolution failing contract = .error error) :
    settleAll contract (earlier ++ failing :: later) = .error error := by
  induction earlier with
  | nil =>
      rw [List.nil_append, settleAll, fails]
      rfl
  | cons solution rest ih =>
      obtain ⟨settlement, own⟩ := settles solution List.mem_cons_self
      have others := ih fun other member => settles other (List.mem_cons_of_mem _ member)
      rw [List.cons_append, settleAll, own, others]
      rfl

theorem exists_first_failing
    (fails : ∃ solution ∈ solutions,
      ∃ error, Settlement.ofSolution solution contract = .error error) :
    ∃ earlier failing later error, solutions = earlier ++ failing :: later ∧
      (∀ solution ∈ earlier,
        ∃ settlement, Settlement.ofSolution solution contract = .ok settlement) ∧
      Settlement.ofSolution failing contract = .error error := by
  induction solutions with
  | nil =>
      obtain ⟨solution, member, -⟩ := fails
      cases member
  | cons solution rest ih =>
      cases outcome : Settlement.ofSolution solution contract with
      | error error => exact ⟨[], solution, rest, error, rfl, nofun, outcome⟩
      | ok settlement =>
          obtain ⟨other, member, error, refused⟩ := fails
          rcases List.mem_cons.mp member with rfl | member
          · rw [outcome] at refused
            cases refused
          · obtain ⟨earlier, failing, later, first, split, settles, failed⟩ :=
              ih ⟨other, member, error, refused⟩
            refine ⟨solution :: earlier, failing, later, first, by rw [split]; rfl, ?_, failed⟩
            intro before among
            rcases List.mem_cons.mp among with rfl | among
            · exact ⟨settlement, outcome⟩
            · exact settles before among

/-!
## Identifiers
-/

/-- The identifier that a cache hands out after so many others. -/
def upcomingId (cache : SolutionCache) (place : Nat) : UInt64 :=
  cache.nextId + UInt64.ofNat place

theorem upcomingId_zero (cache : SolutionCache) : upcomingId cache 0 = cache.nextId :=
  UInt64.add_zero _

theorem toNat_upcomingId {cache : SolutionCache} {place : Nat}
    (room : cache.nextId.toNat + place < UInt64.size) :
    (upcomingId cache place).toNat = cache.nextId.toNat + place := by
  have small : place < UInt64.size := by omega
  rw [upcomingId, UInt64.toNat_add, UInt64.toNat_ofNat_of_lt' small]
  exact Nat.mod_eq_of_lt room

/-- It takes all identifiers until the first of them is handed out again. -/
theorem upcomingId_succ_ne (cache : SolutionCache) {place : Nat}
    (room : place + 1 < UInt64.size) : upcomingId cache (place + 1) ≠ cache.nextId := by
  intro again
  have none : UInt64.ofNat (place + 1) = 0 := UInt64.add_eq_left.mp again
  have number := congrArg UInt64.toNat none
  rw [UInt64.toNat_ofNat_of_lt' room] at number
  exact Nat.succ_ne_zero place number

/-!
## Registering
-/

/-- The entry under which solving keeps a settlement. -/
def newEntry (auction : Auction) (settlement : Settlement) : CacheEntry :=
  ⟨auction.id, auction.deadline, settlement, none⟩

/-- The cache after one settlement is kept under the next identifier. -/
def keep (auction : Auction) (cache : SolutionCache) (settlement : Settlement) : SolutionCache :=
  cache.takeId.2.insert cache.nextId (newEntry auction settlement)

section

variable (auction : Auction) (cache : SolutionCache) (settlement : Settlement)

theorem register_cons (solution : Solution) (rest : List Settled) :
    register auction cache ((solution, settlement) :: rest) =
      (⟨cache.nextId, solution⟩ :: (register auction (keep auction cache settlement) rest).1,
        (register auction (keep auction cache settlement) rest).2) := rfl

theorem get?_keep (id : UInt64) :
    (keep auction cache settlement).get? id =
      if id = cache.nextId then some (newEntry auction settlement) else cache.get? id :=
  SolutionCache.get?_insert cache.takeId.2 cache.nextId id _

theorem size_keep (free : cache.get? cache.nextId = none) :
    (keep auction cache settlement).size = cache.size + 1 :=
  @SolutionCache.size_insert_of_get?_eq_none cache.takeId.2 _ free _

theorem upcomingId_keep (place : Nat) :
    upcomingId (keep auction cache settlement) place = upcomingId cache (place + 1) := by
  exact add_one_add_ofNat cache.nextId place

end

variable (auction : Auction)

/-- Candidates stand in the order of their solutions and are numbered by their places. -/
theorem getElem?_register (cache : SolutionCache) (settled : List Settled) (place : Nat) :
    (register auction cache settled).1[place]? =
      settled[place]?.map fun pair => ⟨upcomingId cache place, pair.1⟩ := by
  induction settled generalizing cache place with
  | nil => rfl
  | cons pair rest ih =>
      obtain ⟨solution, settlement⟩ := pair
      rw [register_cons]
      cases place with
      | zero =>
          rw [upcomingId_zero]
          rfl
      | succ place =>
          rw [← upcomingId_keep auction cache settlement]
          exact ih _ place

theorem get?_register_of_ne {cache : SolutionCache} {settled : List Settled} {id : UInt64}
    (other : ∀ place < settled.length, id ≠ upcomingId cache place) :
    (register auction cache settled).2.get? id = cache.get? id := by
  induction settled generalizing cache with
  | nil => rfl
  | cons pair rest ih =>
      obtain ⟨solution, settlement⟩ := pair
      have first := other 0 (Nat.zero_lt_succ _)
      rw [upcomingId_zero] at first
      have later : ∀ place < rest.length,
          id ≠ upcomingId (keep auction cache settlement) place := by
        intro place inside
        rw [upcomingId_keep]
        exact other (place + 1) (Nat.succ_lt_succ inside)
      rw [register_cons]
      exact (ih later).trans (by rw [get?_keep, if_neg first])

theorem get?_register_upcomingId {cache : SolutionCache} {settled : List Settled}
    (room : settled.length ≤ UInt64.size) {place : Nat} {pair : Settled}
    (inPlace : settled[place]? = some pair) :
    (register auction cache settled).2.get? (upcomingId cache place) =
      some (newEntry auction pair.2) := by
  induction settled generalizing cache place with
  | nil => cases inPlace
  | cons first rest ih =>
      obtain ⟨solution, settlement⟩ := first
      rw [List.length_cons] at room
      rw [register_cons]
      cases place with
      | zero =>
          cases inPlace
          have later : ∀ place < rest.length,
              cache.nextId ≠ upcomingId (keep auction cache settlement) place := by
            intro place inside
            rw [upcomingId_keep]
            exact (upcomingId_succ_ne cache (by omega)).symm
          rw [upcomingId_zero]
          exact (get?_register_of_ne auction later).trans (by rw [get?_keep, if_pos rfl])
      | succ place =>
          rw [← upcomingId_keep auction cache settlement]
          exact ih (by omega) inPlace

theorem size_register {cache : SolutionCache} {settled : List Settled}
    (room : settled.length ≤ UInt64.size)
    (free : ∀ place < settled.length, cache.get? (upcomingId cache place) = none) :
    (register auction cache settled).2.size = cache.size + settled.length := by
  induction settled generalizing cache with
  | nil => rfl
  | cons pair rest ih =>
      obtain ⟨solution, settlement⟩ := pair
      rw [List.length_cons] at room
      have first := free 0 (Nat.zero_lt_succ _)
      rw [upcomingId_zero] at first
      have later : ∀ place < rest.length,
          (keep auction cache settlement).get? (upcomingId (keep auction cache settlement) place) =
            none := by
        intro place inside
        rw [upcomingId_keep, get?_keep, if_neg (upcomingId_succ_ne cache (by omega))]
        exact free (place + 1) (Nat.succ_lt_succ inside)
      rw [register_cons, List.length_cons]
      exact (ih (by omega) later).trans (by rw [size_keep auction cache settlement first]; omega)

theorem exists_place_of_mem_register {cache : SolutionCache} {settled : List Settled}
    {candidate : Candidate} (member : candidate ∈ (register auction cache settled).1) :
    ∃ place pair, settled[place]? = some pair ∧ candidate = ⟨upcomingId cache place, pair.1⟩ := by
  obtain ⟨place, inPlace⟩ := List.mem_iff_getElem?.mp member
  rw [getElem?_register, Option.map_eq_some_iff] at inPlace
  obtain ⟨pair, settledThere, rfl⟩ := inPlace
  exact ⟨place, pair, settledThere, rfl⟩

theorem exists_candidate_at (cache : SolutionCache) {settled : List Settled} {place : Nat}
    (inside : place < settled.length) :
    ∃ candidate ∈ (register auction cache settled).1, candidate.id = upcomingId cache place := by
  have inPlace := getElem?_register auction cache settled place
  rw [List.getElem?_eq_getElem inside] at inPlace
  exact ⟨_, List.mem_of_getElem? inPlace, rfl⟩

theorem get?_register_of_forall_ne {cache : SolutionCache} {settled : List Settled} {id : UInt64}
    (different : ∀ candidate ∈ (register auction cache settled).1, candidate.id ≠ id) :
    (register auction cache settled).2.get? id = cache.get? id := by
  apply get?_register_of_ne auction
  intro place inside same
  obtain ⟨candidate, member, numbered⟩ := exists_candidate_at auction cache inside
  exact different candidate member (numbered.trans same.symm)

section

variable {cache : SolutionCache} {settled : List Settled}
  (vacant : ∀ candidate ∈ (register auction cache settled).1, cache.get? candidate.id = none)
include vacant

theorem size_register_of_vacant (room : settled.length ≤ UInt64.size) :
    (register auction cache settled).2.size = cache.size + settled.length := by
  apply size_register auction room
  intro place inside
  obtain ⟨candidate, member, numbered⟩ := exists_candidate_at auction cache inside
  rw [← numbered]
  exact vacant candidate member

/-- No entry gives way to a candidate. -/
theorem get?_register_of_get? {id : UInt64} {entry : CacheEntry}
    (found : cache.get? id = some entry) :
    (register auction cache settled).2.get? id = some entry := by
  rw [get?_register_of_forall_ne auction, found]
  intro candidate member same
  have free := vacant candidate member
  rw [same, found] at free
  cases free

end

/-- While there are so many identifiers left, none of them lies below the counter. -/
theorem nextId_le_of_mem_register {cache : SolutionCache} {settled : List Settled}
    (room : cache.nextId.toNat + settled.length ≤ UInt64.size) {candidate : Candidate}
    (member : candidate ∈ (register auction cache settled).1) :
    cache.nextId ≤ candidate.id := by
  obtain ⟨place, pair, inPlace, rfl⟩ := exists_place_of_mem_register auction member
  have inside : place < settled.length := (List.getElem?_eq_some_iff.mp inPlace).1
  rw [UInt64.le_iff_toNat_le, toNat_upcomingId (by omega)]
  exact Nat.le_add_right _ _

theorem map_solution_register (cache : SolutionCache) (settled : List Settled) :
    (register auction cache settled).1.map (·.solution) = settled.map (·.1) := by
  apply List.ext_getElem?
  intro place
  rw [List.getElem?_map, List.getElem?_map, getElem?_register, Option.map_map]
  rfl

theorem map_id_register {cache : SolutionCache} {settled : List Settled}
    (room : cache.nextId.toNat + settled.length ≤ UInt64.size) :
    (register auction cache settled).1.map (·.id.toNat) =
      List.range' cache.nextId.toNat settled.length := by
  apply List.ext_getElem?
  intro place
  rw [List.getElem?_map, getElem?_register, Option.map_map]
  by_cases inside : place < settled.length
  · rw [List.getElem?_eq_getElem inside, List.getElem?_range' inside]
    have number : (upcomingId cache place).toNat = cache.nextId.toNat + place :=
      toNat_upcomingId (by omega)
    simpa using number
  · rw [List.getElem?_eq_none (by omega), List.getElem?_eq_none (by simp; omega)]
    rfl

/-!
## Solving
-/

variable {solver : Solver} {strategy : Strategy}

theorem solve_of_refused {error : SettlementError}
    (refused : settleAll solver.settlementContract (strategy auction) = .error error) :
    solver.solve strategy auction = (.error error, solver) := by
  simp only [solve, refused]

theorem solve_of_accepted {settled : List Settled}
    (accepted : settleAll solver.settlementContract (strategy auction) = .ok settled) :
    solver.solve strategy auction =
      (.ok (register auction solver.cache settled).1,
        { solver with cache := (register auction solver.cache settled).2 }) := by
  simp only [solve, accepted]

/-- No entry of a solver that a run leads to stands at or above the counter. -/
theorem get?_run_of_nextId_le {contract : Address} {retention : Duration} {events : List Event}
    (offered : ((fresh contract retention).offers events).length < UInt64.size) {id : UInt64}
    (above : ((fresh contract retention).run events).cache.nextId ≤ id) :
    ((fresh contract retention).run events).cache.get? id = none := by
  cases found : ((fresh contract retention).run events).cache.get? id with
  | none => rfl
  | some entry =>
      have below := (run_fresh_accounts contract retention events offered).id_lt found
      exact absurd below (UInt64.not_lt.mpr above)

/-- Whatever solutions a strategy returns, solving keeps all of them or none. If one cannot
be settled, the first such one decides the error and the solver stays as it was. Otherwise
they are returned in their order under the identifiers that follow the counter, as far as
there are so many; each is kept with the auction, its own settlement and no intent, and no
other identifier sees a difference. If none of these identifiers was in use, as in every
solver that a run leads to, the cache gains so many entries and keeps all it had. -/
theorem solve_all_or_nothing (solver : Solver) (strategy : Strategy) (auction : Auction) :
    let contract := solver.settlementContract
    let cache := solver.cache
    let solutions := strategy auction
    ((∃ solution ∈ solutions, ∃ error, Settlement.ofSolution solution contract = .error error) →
      ∃ earlier failing later error, solutions = earlier ++ failing :: later ∧
        (∀ solution ∈ earlier,
          ∃ settlement, Settlement.ofSolution solution contract = .ok settlement) ∧
        Settlement.ofSolution failing contract = .error error ∧
        solver.solve strategy auction = (.error error, solver)) ∧
    ((∀ solution ∈ solutions,
        ∃ settlement, Settlement.ofSolution solution contract = .ok settlement) →
      cache.nextId.toNat + solutions.length ≤ UInt64.size →
      ∃ candidates after,
        solver.solve strategy auction = (.ok candidates, { solver with cache := after }) ∧
        candidates.map (·.solution) = solutions ∧
        candidates.map (·.id.toNat) = List.range' cache.nextId.toNat solutions.length ∧
        after.nextId.toNat = (cache.nextId.toNat + solutions.length) % UInt64.size ∧
        after.retention = cache.retention ∧
        (∀ candidate ∈ candidates, ∃ settlement,
          Settlement.ofSolution candidate.solution contract = .ok settlement ∧
          after.get? candidate.id = some ⟨auction.id, auction.deadline, settlement, none⟩) ∧
        (∀ id, (∀ candidate ∈ candidates, candidate.id ≠ id) → after.get? id = cache.get? id) ∧
        ((∀ candidate ∈ candidates, cache.get? candidate.id = none) →
          after.size = cache.size + solutions.length ∧
          ∀ id entry, cache.get? id = some entry → after.get? id = some entry) ∧
        ∀ retention events, solver = (fresh contract retention).run events →
          ((fresh contract retention).offers events).length < UInt64.size →
          ∀ candidate ∈ candidates, cache.get? candidate.id = none) := by
  intro contract cache solutions
  constructor
  · intro fails
    obtain ⟨earlier, failing, later, error, split, settles, failed⟩ := exists_first_failing fails
    have refused : settleAll contract (strategy auction) = .error error := by
      rw [show strategy auction = earlier ++ failing :: later from split]
      exact settleAll_of_failing settles failed
    exact ⟨earlier, failing, later, error, split, settles, failed,
      solve_of_refused auction refused⟩
  · intro settles room
    obtain ⟨settled, accepted, paired⟩ := exists_settleAll_forall₂ settles
    have lengths : solutions.length = settled.length := paired.length_eq
    rw [lengths] at room ⊢
    have inOrder : (register auction cache settled).1.map (·.solution) = solutions :=
      (map_solution_register auction cache settled).trans (map_fst_of_settledAs paired)
    refine ⟨_, _, solve_of_accepted auction accepted, inOrder, map_id_register auction room, ?_,
      retention_register auction cache settled, ?_, ?_, ?_, ?_⟩
    · rw [nextId_register, UInt64.toNat_add, UInt64.toNat_ofNat', Nat.add_mod_mod]
    · intro candidate member
      obtain ⟨place, pair, inPlace, rfl⟩ := exists_place_of_mem_register auction member
      exact ⟨pair.2, settleAll_settled accepted pair (List.mem_of_getElem? inPlace),
        get?_register_upcomingId auction (by omega) inPlace⟩
    · intro id different
      exact get?_register_of_forall_ne auction different
    · intro vacant
      refine ⟨size_register_of_vacant auction vacant (by omega), ?_⟩
      intro id entry found
      exact get?_register_of_get? auction vacant found
    · rintro retention events reached offered candidate member
      have above := nextId_le_of_mem_register auction room member
      have led : cache = ((fresh contract retention).run events).cache :=
        congrArg Solver.cache reached
      rw [led] at above ⊢
      exact get?_run_of_nextId_le offered above

/-- After one solution is kept, two more are, and one that cannot be settled keeps out the
solutions around it. -/
theorem unpriced_solution_keeps_out_others :
    let unpriced : Solution := { Solution.idle with
      trades := [.selling (.ofNat 20 1) (.ofNat 20 2) (.ofNat 5)] }
    let solver := (fresh .zero .zero).run [⟨.first, .solve (fun _ => [.idle]) (.idle none .first)⟩]
    let auction := Auction.idle (some 7) .last
    (∃ error,
      solver.solve (fun _ => [.idle, unpriced, .idle]) auction = (.error error, solver)) ∧
    solver.cache.nextId.toNat + 2 ≤ UInt64.size ∧
    ∃ candidates after,
      solver.solve (fun _ => [.idle, .idle]) auction =
        (.ok candidates, { solver with cache := after }) ∧
      candidates.map (·.id.toNat) = [1, 2] ∧ after.size = 3 := by
  intro unpriced solver auction
  have fails : ∃ solution ∈ [Solution.idle, unpriced, .idle], ∃ error,
      Settlement.ofSolution solution solver.settlementContract = .error error :=
    ⟨unpriced, List.mem_cons_of_mem _ List.mem_cons_self, .missingPrice (.ofNat 20 1),
      by decide +kernel⟩
  have settles : ∀ solution ∈ [Solution.idle, .idle], ∃ settlement,
      Settlement.ofSolution solution solver.settlementContract = .ok settlement := by
    intro solution member
    rw [show solution = .idle by simpa using member]
    exact ⟨⟨[], [], [], [], [], []⟩, rfl⟩
  have room : solver.cache.nextId.toNat + 2 ≤ UInt64.size := by decide
  obtain ⟨_, _, _, error, -, -, -, refused⟩ :=
    (solve_all_or_nothing solver (fun _ => [.idle, unpriced, .idle]) auction).1 fails
  obtain ⟨candidates, after, accepted, -, ids, -, -, -, -, gained, free⟩ :=
    (solve_all_or_nothing solver (fun _ => [.idle, .idle]) auction).2 settles room
  have vacant := free .zero _ rfl (by decide)
  exact ⟨⟨error, refused⟩, room, candidates, after, accepted, ids, (gained vacant).1⟩

end Solver

end BatchAuction
