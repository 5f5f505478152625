import BatchAuction.Decimal.Natural
import BatchAuction.Metrics.Basic

/-!
# Metrics as text

Metrics are shown in families, each with a line that explains it, a line that names
its kind and a line for every sample. Of measured times only their number is kept.
-/

set_option autoImplicit false

namespace BatchAuction.Metrics

inductive FamilyKind where
  | counter
  | gauge
  | histogram
deriving DecidableEq, Repr

def FamilyKind.name : FamilyKind → String
  | .counter => "counter"
  | .gauge => "gauge"
  | .histogram => "histogram"

/-- A number and what follows the name of its family. -/
structure Sample where
  suffix : String
  value : Nat
deriving DecidableEq, Repr

structure Family where
  name : String
  help : String
  kind : FamilyKind
  samples : List Sample
deriving DecidableEq, Repr

/-- A sample that is told apart by a label. -/
def labelled (label value : String) (count : Nat) : Sample :=
  ⟨"\x7b" ++ label ++ "=\"" ++ value ++ "\"\x7d", count⟩

/-- Samples by outcome, without those that are zero. -/
def outcomes (counts : List (String × Nat)) : List Sample :=
  (counts.filter fun count => count.2 ≠ 0).map fun count => labelled "result" count.1 count.2

/-- The counts of lookups under their labels. -/
def lookups (found : String) (counts : LookupCounts) : List (String × Nat) :=
  [(found, counts.found), ("unknown", counts.unknown), ("expired", counts.expired),
    ("auction_mismatch", counts.auctionMismatch)]

/-- The counts of quotes under their labels. -/
def quoteOutcomes (counts : QuoteCounts) : List (String × Nat) :=
  [("ok", counts.ok), ("same_tokens", counts.sameTokens), ("overflow", counts.overflow),
    ("invalid_ratio", counts.invalidRatio)]

/-- The families in the order of their names. -/
def families (metrics : Metrics) : List Family :=
  [⟨"cache_size", "The number of solutions currently kept for revealing.", .gauge,
      [⟨"", metrics.cacheSize⟩]⟩,
    ⟨"notifications", "Received notifications by kind.", .counter,
      metrics.notifications.map fun count => labelled "kind" count.1 count.2⟩,
    ⟨"quotes", "Quote requests by outcome.", .counter,
      outcomes (quoteOutcomes metrics.quotes)⟩,
    ⟨"remaining_time",
      "The amount of time this solver engine has left when it finished solving.", .histogram,
      [⟨"_count", metrics.remainingTimes⟩]⟩,
    ⟨"reveals", "Reveal requests by outcome.", .counter,
      outcomes (lookups "ok" metrics.reveals)⟩,
    ⟨"settles", "Settle requests by whether the solution was still known.", .counter,
      outcomes (lookups "known" metrics.settles)⟩,
    ⟨"solutions", "The number of solutions that were found.", .counter,
      [⟨"", metrics.solutions⟩]⟩,
    ⟨"solve_errors", "Errors that occurred during solving.", .counter,
      if metrics.missingPrices = 0 then []
      else [labelled "reason" "missing_price" metrics.missingPrices]⟩,
    ⟨"time_limit", "The amount of time this solver engine has for solving.", .histogram,
      [⟨"_count", metrics.timeLimits⟩]⟩]

def Family.lines (family : Family) : List String :=
  let name := "solver_engine_" ++ family.name
  ("# HELP " ++ name ++ " " ++ family.help) :: ("# TYPE " ++ name ++ " " ++ family.kind.name) ::
    family.samples.map fun sample => name ++ sample.suffix ++ " " ++ Decimal.print sample.value

def print (metrics : Metrics) : String :=
  String.join ((metrics.families.flatMap Family.lines).map (· ++ "\n"))

end BatchAuction.Metrics
