import BatchAuction.Clock.Expiry
import BatchAuction.Settlement

/-!
# Solution cache

Solutions are kept under their identifiers from the time they are announced until
some time after the deadline of their auction. Identifiers count up and are never
used again. An entry whose time is over is removed when it is next looked up, or
by a sweep.
-/

set_option autoImplicit false

namespace BatchAuction

open Clock

/-- The intent of the driver to execute a solution. -/
structure SettleIntent where
  auctionId : Int64
  submissionDeadlineLatestBlock : UInt64
deriving DecidableEq, Repr

/-- A solution that can be revealed. A solution to an auction without identifier can
be revealed for any auction. -/
structure CacheEntry where
  auctionId : Option Int64
  deadline : Timestamp
  settlement : Settlement
  intent : Option SettleIntent
deriving DecidableEq

/-- Why a solution is not found. -/
inductive LookupError where
  | unknown
  | expired
  | auctionMismatch
deriving DecidableEq, Repr

/-- Why a solution is not found, as text. -/
def LookupError.message : LookupError → String
  | .unknown => "solution was never produced"
  | .expired => "solution expired"
  | .auctionMismatch => "solution was produced for a different auction"

/-- The solutions that can be revealed, one for each identifier. -/
structure SolutionCache where
  /-- How long solutions are kept after the deadline of their auction. -/
  retention : Duration
  nextId : UInt64
  entries : List (UInt64 × CacheEntry)
  nodup_ids : (entries.map (·.1)).Nodup

namespace SolutionCache

/-- The cache that holds nothing yet. -/
def empty (retention : Duration) : SolutionCache := ⟨retention, 0, [], by simp⟩

def size (cache : SolutionCache) : Nat := cache.entries.length

/-- The next identifier, which is used up. -/
def takeId (cache : SolutionCache) : UInt64 × SolutionCache :=
  (cache.nextId, { cache with nextId := cache.nextId + 1 })

def get? (cache : SolutionCache) (id : UInt64) : Option CacheEntry :=
  (cache.entries.find? fun entry => entry.1 = id).map (·.2)

/-- The cache with those entries only that a condition admits. -/
def filter (cache : SolutionCache) (keep : UInt64 × CacheEntry → Bool) : SolutionCache where
  retention := cache.retention
  nextId := cache.nextId
  entries := cache.entries.filter keep
  nodup_ids := cache.nodup_ids.sublist (List.filter_sublist.map _)

/-- The cache without the entry of an identifier. -/
def erase (cache : SolutionCache) (id : UInt64) : SolutionCache :=
  cache.filter fun entry => entry.1 ≠ id

/-- The cache with an entry, which takes the place of any other one of the
identifier. -/
def insert (cache : SolutionCache) (id : UInt64) (entry : CacheEntry) : SolutionCache where
  retention := cache.retention
  nextId := cache.nextId
  entries := (id, entry) :: (cache.erase id).entries
  nodup_ids := by
    refine List.nodup_cons.mpr ⟨?_, (cache.erase id).nodup_ids⟩
    simp [erase, filter]

/-- Whether the time of an entry is over. -/
def isExpired (cache : SolutionCache) (now : Timestamp) (entry : CacheEntry) : Bool :=
  entry.deadline.expired cache.retention now

/-- Whether an entry belongs to an auction. -/
def belongsTo (entry : CacheEntry) (auctionId : Int64) : Bool :=
  match entry.auctionId with
  | none => true
  | some expected => expected = auctionId

/-- Looks up the solution of an identifier for an auction. An entry whose time is
over is removed, whatever auction it belongs to. -/
def lookup (cache : SolutionCache) (now : Timestamp) (id : UInt64) (auctionId : Int64) :
    Except LookupError CacheEntry × SolutionCache :=
  match cache.get? id with
  | none => (.error .unknown, cache)
  | some entry =>
      if cache.isExpired now entry then (.error .expired, cache.erase id)
      else if belongsTo entry auctionId then (.ok entry, cache)
      else (.error .auctionMismatch, cache)

def settlement (cache : SolutionCache) (now : Timestamp) (id : UInt64) (auctionId : Int64) :
    Except LookupError Settlement × SolutionCache :=
  let (found, cache) := cache.lookup now id auctionId
  (found.map (·.settlement), cache)

/-- Notes the intent to execute a solution; an earlier one is forgotten. -/
def recordSettle (cache : SolutionCache) (now : Timestamp) (id : UInt64)
    (intent : SettleIntent) : Except LookupError Unit × SolutionCache :=
  match cache.lookup now id intent.auctionId with
  | (.ok entry, cache) => (.ok (), cache.insert id { entry with intent := some intent })
  | (.error error, cache) => (.error error, cache)

/-- Removes the entries whose time is over. -/
def sweep (cache : SolutionCache) (now : Timestamp) : SolutionCache :=
  cache.filter fun entry => !cache.isExpired now entry.2

/-- The number of entries that a sweep removes. -/
def sweptCount (cache : SolutionCache) (now : Timestamp) : Nat :=
  cache.size - (cache.sweep now).size

end SolutionCache

end BatchAuction
