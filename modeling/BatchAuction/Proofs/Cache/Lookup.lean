import BatchAuction.Proofs.Entries
import BatchAuction.SolutionCache

/-!
# Entries of the solution cache

What each operation of the cache does to the entry of every identifier. Looking up,
settling and sweeping never put an entry in: they leave each one as it was apart from
its intent, or remove it because its time is over.
-/

set_option autoImplicit false

namespace BatchAuction

open Clock

/-- An entry whose intent alone may differ from another one. -/
def CacheEntry.AgreesWith (entry former : CacheEntry) : Prop :=
  entry = { former with intent := entry.intent }

theorem CacheEntry.AgreesWith.refl (entry : CacheEntry) : entry.AgreesWith entry := rfl

theorem CacheEntry.AgreesWith.trans {last middle first : CacheEntry}
    (late : last.AgreesWith middle) (early : middle.AgreesWith first) :
    last.AgreesWith first := by
  unfold CacheEntry.AgreesWith at *
  rw [late, early]

namespace SolutionCache

/-- Identifiers are unique, so an entry is found exactly if the cache holds it. -/
theorem get?_eq_some_iff {cache : SolutionCache} {id : UInt64} {entry : CacheEntry} :
    cache.get? id = some entry ↔ (id, entry) ∈ cache.entries :=
  Entries.find?_eq_some_iff cache.nodup_ids

@[simp] theorem get?_empty (retention : Duration) (id : UInt64) :
    (empty retention).get? id = none := rfl

theorem get?_filter (cache : SolutionCache) (keep : UInt64 × CacheEntry → Bool) (id : UInt64) :
    (cache.filter keep).get? id = (cache.get? id).filter fun entry => keep (id, entry) := by
  apply Option.ext
  intro entry
  rw [get?_eq_some_iff, Option.filter_eq_some_iff, get?_eq_some_iff]
  exact List.mem_filter

theorem get?_erase (cache : SolutionCache) (id other : UInt64) :
    (cache.erase id).get? other = if other = id then none else cache.get? other := by
  unfold erase
  rw [get?_filter]
  cases cache.get? other <;> by_cases same : other = id <;> simp [same]

/-- An insertion changes what is found under one identifier. -/
theorem get?_insert (cache : SolutionCache) (id other : UInt64) (entry : CacheEntry) :
    (cache.insert id entry).get? other = if other = id then some entry else cache.get? other := by
  by_cases same : other = id
  · simp [get?, insert, same]
  · have different : ¬ id = other := fun equal => same equal.symm
    rw [if_neg same]
    calc (cache.insert id entry).get? other
        = (cache.erase id).get? other := by simp [get?, insert, different]
      _ = cache.get? other := by rw [get?_erase, if_neg same]

theorem get?_sweep (cache : SolutionCache) (now : Timestamp) (id : UInt64) :
    (cache.sweep now).get? id =
      (cache.get? id).filter fun entry => !cache.isExpired now entry :=
  get?_filter cache _ id

theorem lookup_of_get?_eq_none {cache : SolutionCache} {id : UInt64}
    (absent : cache.get? id = none) (now : Timestamp) (auctionId : Int64) :
    cache.lookup now id auctionId = (.error .unknown, cache) := by
  simp only [lookup, absent]

theorem lookup_of_get?_eq_some {cache : SolutionCache} {id : UInt64} {entry : CacheEntry}
    (found : cache.get? id = some entry) (now : Timestamp) (auctionId : Int64) :
    cache.lookup now id auctionId =
      if cache.isExpired now entry then (.error .expired, cache.erase id)
      else if belongsTo entry auctionId then (.ok entry, cache)
      else (.error .auctionMismatch, cache) := by
  simp only [lookup, found]

/-- A lookup has four outcomes. An entry whose time is over is removed before its
auction is compared. -/
theorem lookup_cases (cache : SolutionCache) (now : Timestamp) (id : UInt64)
    (auctionId : Int64) :
    (cache.get? id = none ∧ cache.lookup now id auctionId = (.error .unknown, cache)) ∨
    ∃ entry, cache.get? id = some entry ∧
      ((cache.isExpired now entry = true ∧
          cache.lookup now id auctionId = (.error .expired, cache.erase id)) ∨
        (cache.isExpired now entry = false ∧ belongsTo entry auctionId = true ∧
          cache.lookup now id auctionId = (.ok entry, cache)) ∨
        (cache.isExpired now entry = false ∧ belongsTo entry auctionId = false ∧
          cache.lookup now id auctionId = (.error .auctionMismatch, cache))) := by
  cases found : cache.get? id with
  | none => exact .inl ⟨rfl, lookup_of_get?_eq_none found now auctionId⟩
  | some entry =>
      refine .inr ⟨entry, rfl, ?_⟩
      rw [lookup_of_get?_eq_some found]
      cases overdue : cache.isExpired now entry with
      | true => exact .inl ⟨rfl, rfl⟩
      | false =>
          cases belongs : belongsTo entry auctionId with
          | true => exact .inr (.inl ⟨rfl, rfl, rfl⟩)
          | false => exact .inr (.inr ⟨rfl, rfl, rfl⟩)

/-- Exactly the live entries of an auction are found for it. -/
theorem lookup_ok_iff {cache : SolutionCache} {now : Timestamp} {id : UInt64}
    {auctionId : Int64} {entry : CacheEntry} :
    (cache.lookup now id auctionId).1 = .ok entry ↔
      cache.get? id = some entry ∧ cache.isExpired now entry = false ∧
        belongsTo entry auctionId = true := by
  rcases cache.lookup_cases now id auctionId with
    ⟨absent, result⟩ | ⟨held, present, ⟨overdue, result⟩ | ⟨live, belongs, result⟩ |
      ⟨live, foreign, result⟩⟩
  · simp [absent, result]
  · simp only [result, present, reduceCtorEq, Option.some.injEq, false_iff]
    rintro ⟨rfl, live, -⟩
    rw [overdue] at live
    cases live
  · simp only [result, present, Except.ok.injEq, Option.some.injEq]
    constructor
    · rintro rfl
      exact ⟨rfl, live, belongs⟩
    · exact fun same => same.1
  · simp only [result, present, reduceCtorEq, Option.some.injEq, false_iff]
    rintro ⟨rfl, -, belongs⟩
    rw [foreign] at belongs
    cases belongs

/-- What a cache becomes at a time when nothing is put in: its entries stay apart
from their intents, and what is gone was over. -/
structure Trims (now : Timestamp) (before after : SolutionCache) : Prop where
  retention_eq : after.retention = before.retention
  nextId_eq : after.nextId = before.nextId
  kept : ∀ {id entry}, after.get? id = some entry →
    ∃ former, before.get? id = some former ∧ entry.AgreesWith former
  gone : ∀ {id entry}, before.get? id = some entry → after.get? id = none →
    before.isExpired now entry = true

theorem Trims.refl (now : Timestamp) (cache : SolutionCache) : cache.Trims now cache where
  retention_eq := rfl
  nextId_eq := rfl
  kept found := ⟨_, found, .refl _⟩
  gone found missing := by rw [found] at missing; cases missing

theorem sweep_trims (cache : SolutionCache) (now : Timestamp) :
    cache.Trims now (cache.sweep now) where
  retention_eq := rfl
  nextId_eq := rfl
  kept {id entry} found := by
    rw [get?_sweep] at found
    exact ⟨entry, (Option.filter_eq_some_iff.mp found).1, .refl entry⟩
  gone {id entry} found missing := by
    rw [get?_sweep, found] at missing
    simpa [Option.filter] using missing

theorem erase_trims {cache : SolutionCache} {now : Timestamp} {id : UInt64}
    {entry : CacheEntry} (found : cache.get? id = some entry)
    (overdue : cache.isExpired now entry = true) : cache.Trims now (cache.erase id) where
  retention_eq := rfl
  nextId_eq := rfl
  kept {other held} present := by
    rw [get?_erase] at present
    split at present
    · cases present
    · exact ⟨held, present, .refl held⟩
  gone {other held} present missing := by
    rw [get?_erase] at missing
    split at missing
    · rename_i same
      rw [same, found] at present
      cases present
      exact overdue
    · rw [present] at missing
      cases missing

theorem insert_intent_trims {cache : SolutionCache} {id : UInt64} {entry : CacheEntry}
    (now : Timestamp) (found : cache.get? id = some entry) (intent : Option SettleIntent) :
    cache.Trims now (cache.insert id { entry with intent := intent }) where
  retention_eq := rfl
  nextId_eq := rfl
  kept {other held} present := by
    rw [get?_insert] at present
    split at present
    · rename_i same
      cases present
      exact ⟨entry, same ▸ found, rfl⟩
    · exact ⟨held, present, .refl held⟩
  gone {other held} present missing := by
    rw [get?_insert] at missing
    split at missing
    · cases missing
    · rw [present] at missing
      cases missing

theorem lookup_trims (cache : SolutionCache) (now : Timestamp) (id : UInt64)
    (auctionId : Int64) : cache.Trims now (cache.lookup now id auctionId).2 := by
  rcases cache.lookup_cases now id auctionId with
    ⟨-, result⟩ | ⟨entry, found, ⟨overdue, result⟩ | ⟨-, -, result⟩ | ⟨-, -, result⟩⟩
  · rw [result]; exact .refl now cache
  · rw [result]; exact erase_trims found overdue
  · rw [result]; exact .refl now cache
  · rw [result]; exact .refl now cache

theorem settlement_trims (cache : SolutionCache) (now : Timestamp) (id : UInt64)
    (auctionId : Int64) : cache.Trims now (cache.settlement now id auctionId).2 :=
  cache.lookup_trims now id auctionId

theorem recordSettle_trims (cache : SolutionCache) (now : Timestamp) (id : UInt64)
    (intent : SettleIntent) : cache.Trims now (cache.recordSettle now id intent).2 := by
  unfold recordSettle
  rcases cache.lookup_cases now id intent.auctionId with
    ⟨-, result⟩ | ⟨entry, found, ⟨overdue, result⟩ | ⟨-, -, result⟩ | ⟨-, -, result⟩⟩
  · rw [result]; exact .refl now cache
  · rw [result]; exact erase_trims found overdue
  · rw [result]; exact insert_intent_trims now found (some intent)
  · rw [result]; exact .refl now cache

end SolutionCache

end BatchAuction
