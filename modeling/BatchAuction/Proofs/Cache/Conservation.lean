import BatchAuction.Proofs.Cache.Lookup

/-!
# What becomes of entries

An entry that is put into a cache is still held, or a sweep has counted it, or a lookup has
found it to be over. The account holds at every reading of the clock, also if the clock runs
backwards, because sweeps and lookups agree on which entries are over.
-/

set_option autoImplicit false

namespace BatchAuction

open Clock

/-- Why a solution is not found once a sweep has removed what is over. -/
def LookupError.afterSweep : LookupError → LookupError
  | .expired => .unknown
  | cause => cause

def CacheEntry.idle (deadline : Timestamp) : CacheEntry :=
  ⟨none, deadline, ⟨[], [], [], [], [], []⟩, none⟩

namespace SolutionCache

variable {cache : SolutionCache} {id : UInt64} {entry : CacheEntry}

theorem size_erase_of_get? (found : cache.get? id = some entry) :
    (cache.erase id).size + 1 = cache.size :=
  Entries.length_filter_ne cache.nodup_ids (get?_eq_some_iff.mp found)

/-- An entry that takes the place of another one leaves the size as it is. -/
theorem size_insert_of_get? (found : cache.get? id = some entry) (replacement : CacheEntry) :
    (cache.insert id replacement).size = cache.size :=
  size_erase_of_get? found

theorem entries_erase_of_get?_eq_none (absent : cache.get? id = none) :
    (cache.erase id).entries = cache.entries := by
  apply List.filter_eq_self.mpr
  intro held member
  apply decide_eq_true
  intro same
  have found : cache.get? id = some held.2 := get?_eq_some_iff.mpr (same ▸ member)
  rw [absent] at found
  cases found

theorem size_insert_of_get?_eq_none (absent : cache.get? id = none) (entry : CacheEntry) :
    (cache.insert id entry).size = cache.size + 1 :=
  congrArg (·.length + 1) (entries_erase_of_get?_eq_none absent)

theorem size_sweep_add_sweptCount (cache : SolutionCache) (now : Timestamp) :
    (cache.sweep now).size + cache.sweptCount now = cache.size := by
  have shrunk : (cache.sweep now).size ≤ cache.size := List.length_filter_le _ _
  unfold sweptCount
  omega

/-!
## Sweeps and lookups
-/

theorem lookup_expired_iff_of_get? (found : cache.get? id = some entry) (now : Timestamp)
    (auctionId : Int64) :
    (cache.lookup now id auctionId).1 = .error .expired ↔ cache.isExpired now entry = true := by
  rw [lookup_of_get?_eq_some found]
  cases cache.isExpired now entry with
  | true => simp
  | false => cases belongsTo entry auctionId <;> simp

/-- A sweep keeps exactly the entries that a lookup would not find to be over. -/
theorem get?_sweep_eq_some_iff (now : Timestamp) (auctionId : Int64) :
    (cache.sweep now).get? id = some entry ↔
      cache.get? id = some entry ∧ (cache.lookup now id auctionId).1 ≠ .error .expired := by
  rw [get?_sweep, Option.filter_eq_some_iff]
  apply and_congr_right
  intro found
  rw [ne_eq, lookup_expired_iff_of_get? found]
  simp

/-- A lookup after a sweep gives the answer it would have given before. -/
theorem lookup_sweep (cache : SolutionCache) (now : Timestamp) (id : UInt64)
    (auctionId : Int64) :
    ((cache.sweep now).lookup now id auctionId).1 =
      (cache.lookup now id auctionId).1.mapError LookupError.afterSweep := by
  cases found : cache.get? id with
  | none =>
      have gone : (cache.sweep now).get? id = none := by rw [get?_sweep, found]; rfl
      rw [lookup_of_get?_eq_none found, lookup_of_get?_eq_none gone]
      rfl
  | some entry =>
      have swept := get?_sweep cache now id
      have sameTime : (cache.sweep now).isExpired now entry = cache.isExpired now entry := rfl
      rw [found, Option.filter_some] at swept
      rw [lookup_of_get?_eq_some found]
      cases overdue : cache.isExpired now entry with
      | true =>
          rw [overdue] at swept
          rw [lookup_of_get?_eq_none swept]
          rfl
      | false =>
          rw [overdue] at swept
          rw [lookup_of_get?_eq_some swept, sameTime, overdue]
          cases belongsTo entry auctionId <;> rfl

theorem settlement_expired_iff {now : Timestamp} {auctionId : Int64} :
    (cache.settlement now id auctionId).1 = .error .expired ↔
      (cache.lookup now id auctionId).1 = .error .expired := by
  unfold settlement
  rcases cache.lookup now id auctionId with ⟨cause | found, _⟩
  · simp [Except.map]
  · simp [Except.map]

theorem settlement_sweep (cache : SolutionCache) (now : Timestamp) (id : UInt64)
    (auctionId : Int64) :
    ((cache.sweep now).settlement now id auctionId).1 =
      (cache.settlement now id auctionId).1.mapError LookupError.afterSweep := by
  unfold settlement
  dsimp only
  rw [lookup_sweep]
  rcases cache.lookup now id auctionId with ⟨cause | found, _⟩ <;> rfl

theorem recordSettle_answer (cache : SolutionCache) (now : Timestamp) (id : UInt64)
    (intent : SettleIntent) :
    (cache.recordSettle now id intent).1 =
      (cache.lookup now id intent.auctionId).1.map fun _ => () := by
  unfold recordSettle
  rcases cache.lookup now id intent.auctionId with ⟨cause | found, _⟩ <;> rfl

theorem recordSettle_sweep (cache : SolutionCache) (now : Timestamp) (id : UInt64)
    (intent : SettleIntent) :
    ((cache.sweep now).recordSettle now id intent).1 =
      (cache.recordSettle now id intent).1.mapError LookupError.afterSweep := by
  rw [recordSettle_answer, recordSettle_answer, lookup_sweep]
  cases (cache.lookup now id intent.auctionId).1 <;> rfl

/-!
## Calls
-/

/-- What a cache can be asked for. -/
inductive Call where
  | insert (id : UInt64) (entry : CacheEntry)
  | settlement (id : UInt64) (auctionId : Int64)
  | recordSettle (id : UInt64) (intent : SettleIntent)
  | sweep

/-- What a call returns. -/
inductive Answer where
  | inserted
  | settlement (found : Except LookupError Settlement)
  | recorded (noted : Except LookupError Unit)
  | swept (count : Nat)

/-- A call and the reading of the clock at which it is made. -/
structure Event where
  time : Timestamp
  call : Call

def perform (cache : SolutionCache) (event : Event) : Answer × SolutionCache :=
  match event.call with
  | .insert id entry => (.inserted, cache.insert id entry)
  | .settlement id auctionId =>
      let (found, cache) := cache.settlement event.time id auctionId
      (.settlement found, cache)
  | .recordSettle id intent =>
      let (noted, cache) := cache.recordSettle event.time id intent
      (.recorded noted, cache)
  | .sweep => (.swept (cache.sweptCount event.time), cache.sweep event.time)

def run (cache : SolutionCache) : List Event → SolutionCache
  | [] => cache
  | event :: rest => (cache.perform event).2.run rest

/-- What the calls of a run return, in their order. -/
def answers (cache : SolutionCache) : List Event → List Answer
  | [] => []
  | event :: rest => (cache.perform event).1 :: (cache.perform event).2.answers rest

/-- Nothing is inserted under an identifier that is in use. -/
def Admits (cache : SolutionCache) (event : Event) : Prop :=
  match event.call with
  | .insert id _ => cache.get? id = none
  | _ => True

def InsertsFresh (cache : SolutionCache) : List Event → Prop
  | [] => True
  | event :: rest => cache.Admits event ∧ (cache.perform event).2.InsertsFresh rest

namespace Answer

def insertions : Answer → Nat
  | .inserted => 1
  | _ => 0

/-- Whether a lookup has found the time of an entry to be over, as a number. -/
def expirations : Answer → Nat
  | .settlement (.error .expired) | .recorded (.error .expired) => 1
  | _ => 0

def sweptEntries : Answer → Nat
  | .swept count => count
  | _ => 0

/-- The sum of a count over all answers. -/
def total (count : Answer → Nat) : List Answer → Nat
  | [] => 0
  | answer :: rest => count answer + total count rest

end Answer

/-- A call puts in one entry, sweeps out as many as it returns, or finds one that is over
and removes it, or leaves their number as it is. -/
theorem size_perform {event : Event} (admitted : cache.Admits event) :
    cache.size + (cache.perform event).1.insertions =
      (cache.perform event).2.size + (cache.perform event).1.sweptEntries +
        (cache.perform event).1.expirations := by
  obtain ⟨time, call⟩ := event
  cases call with
  | insert id entry =>
      show cache.size + 1 = (cache.insert id entry).size
      exact (size_insert_of_get?_eq_none admitted entry).symm
  | settlement id auctionId =>
      dsimp only [perform, settlement]
      rcases cache.lookup_cases time id auctionId with
        ⟨-, result⟩ | ⟨entry, found, ⟨-, result⟩ | ⟨-, -, result⟩ | ⟨-, -, result⟩⟩
      · rw [result]; rfl
      · rw [result]; exact (size_erase_of_get? found).symm
      · rw [result]; rfl
      · rw [result]; rfl
  | recordSettle id intent =>
      dsimp only [perform, recordSettle]
      rcases cache.lookup_cases time id intent.auctionId with
        ⟨-, result⟩ | ⟨entry, found, ⟨-, result⟩ | ⟨-, -, result⟩ | ⟨-, -, result⟩⟩
      · rw [result]; rfl
      · rw [result]; exact (size_erase_of_get? found).symm
      · rw [result]; exact (size_insert_of_get? found { entry with intent := some intent }).symm
      · rw [result]; rfl
  | sweep => exact (cache.size_sweep_add_sweptCount time).symm

/-- The induction is on the calls; each moves the balance by its own answer. -/
theorem size_run {events : List Event} (fresh : cache.InsertsFresh events) :
    cache.size + Answer.total Answer.insertions (cache.answers events) =
      (cache.run events).size + Answer.total Answer.sweptEntries (cache.answers events) +
        Answer.total Answer.expirations (cache.answers events) := by
  induction events generalizing cache with
  | nil => rfl
  | cons event rest ih =>
      obtain ⟨admitted, restFresh⟩ := fresh
      have first := size_perform admitted
      have others := ih restFresh
      simp only [answers, run, Answer.total]
      omega

/-- Over all calls of a cache, whatever the clock shows, as many entries were put in as are
held, were counted by sweeps and were found to be over by lookups. A sweep removes exactly
the entries that a lookup at its time would find to be over and keeps all others as they
are; lookups after it give the same answers as before, but what was over is unknown. -/
theorem entries_accounted_for_once (retention : Duration) (events : List Event)
    (fresh : (empty retention).InsertsFresh events) :
    let cache := (empty retention).run events
    let answers := (empty retention).answers events
    Answer.total Answer.insertions answers =
        cache.size + Answer.total Answer.sweptEntries answers +
          Answer.total Answer.expirations answers ∧
      ∀ (now : Timestamp) (id : UInt64),
        (∀ entry auctionId, (cache.sweep now).get? id = some entry ↔
          cache.get? id = some entry ∧
            (cache.settlement now id auctionId).1 ≠ .error .expired) ∧
        (∀ auctionId, ((cache.sweep now).settlement now id auctionId).1 =
          (cache.settlement now id auctionId).1.mapError LookupError.afterSweep) ∧
        ∀ intent, ((cache.sweep now).recordSettle now id intent).1 =
          (cache.recordSettle now id intent).1.mapError LookupError.afterSweep := by
  intro cache answers
  have balance := size_run fresh
  constructor
  · have nothing : (empty retention).size = 0 := rfl
    rw [nothing, Nat.zero_add] at balance
    exact balance
  · intro now id
    refine ⟨?_, ?_, ?_⟩
    · intro entry auctionId
      rw [ne_eq, settlement_expired_iff]
      exact get?_sweep_eq_some_iff now auctionId
    · intro auctionId
      exact cache.settlement_sweep now id auctionId
    · intro intent
      exact cache.recordSettle_sweep now id intent

/-- One entry is found to be over, one is swept, and the clock runs backwards before an
identifier is taken again. -/
theorem all_entries_accounted_for :
    let events : List Event := [
      ⟨.first, .insert 0 (.idle .first)⟩,
      ⟨.first, .insert 1 (.idle .first)⟩,
      ⟨.first, .insert 2 (.idle .last)⟩,
      ⟨.last, .recordSettle 0 ⟨7, 100⟩⟩,
      ⟨.last, .sweep⟩,
      ⟨.first, .insert 0 (.idle .first)⟩,
      ⟨.first, .settlement 0 7⟩]
    let answers := (empty .zero).answers events
    (empty .zero).InsertsFresh events ∧
      answers.map Answer.sweptEntries = [0, 0, 0, 0, 1, 0, 0] ∧
      answers.map Answer.expirations = [0, 0, 0, 1, 0, 0, 0] ∧
      Answer.total Answer.insertions answers = ((empty .zero).run events).size + 1 + 1 := by
  intro events answers
  have fresh : (empty .zero).InsertsFresh events :=
    ⟨rfl, rfl, rfl, trivial, trivial, rfl, trivial, trivial⟩
  exact ⟨fresh, by decide, by decide, (entries_accounted_for_once .zero events fresh).1⟩

end SolutionCache

end BatchAuction
