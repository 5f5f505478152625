import BatchAuction.Quote
import BatchAuction.SolutionCache

/-!
# Metrics

Counters of everything that the engine does, and the number of solutions it holds.
-/

set_option autoImplicit false

namespace BatchAuction

/-- How often lookups came out in each way. -/
structure LookupCounts where
  found : Nat
  unknown : Nat
  expired : Nat
  auctionMismatch : Nat
deriving DecidableEq, Repr

/-- How often quotes came out in each way. -/
structure QuoteCounts where
  ok : Nat
  sameTokens : Nat
  overflow : Nat
  invalidRatio : Nat
deriving DecidableEq, Repr

structure Metrics where
  /-- How often the time for solving was measured. -/
  timeLimits : Nat
  /-- How often the time left after solving was measured. -/
  remainingTimes : Nat
  /-- Solutions that could not be settled because a price was missing. -/
  missingPrices : Nat
  solutions : Nat
  reveals : LookupCounts
  settles : LookupCounts
  /-- Notifications by the label of their kind. -/
  notifications : List (String × Nat)
  quotes : QuoteCounts
  cacheSize : Nat
deriving DecidableEq, Repr

def LookupCounts.zero : LookupCounts := ⟨0, 0, 0, 0⟩

def LookupCounts.total (counts : LookupCounts) : Nat :=
  counts.found + counts.unknown + counts.expired + counts.auctionMismatch

def LookupCounts.count {α : Type} (counts : LookupCounts) :
    Except LookupError α → LookupCounts
  | .ok _ => { counts with found := counts.found + 1 }
  | .error .unknown => { counts with unknown := counts.unknown + 1 }
  | .error .expired => { counts with expired := counts.expired + 1 }
  | .error .auctionMismatch => { counts with auctionMismatch := counts.auctionMismatch + 1 }

def QuoteCounts.zero : QuoteCounts := ⟨0, 0, 0, 0⟩

def QuoteCounts.count {α : Type} (counts : QuoteCounts) : Except QuoteError α → QuoteCounts
  | .ok _ => { counts with ok := counts.ok + 1 }
  | .error .sameTokens => { counts with sameTokens := counts.sameTokens + 1 }
  | .error .overflow => { counts with overflow := counts.overflow + 1 }
  | .error .invalidRatio => { counts with invalidRatio := counts.invalidRatio + 1 }

/-- Counts one thing more under a label. -/
def countLabel (label : String) : List (String × Nat) → List (String × Nat)
  | [] => [(label, 1)]
  | (other, count) :: rest =>
      if other = label then (other, count + 1) :: rest
      else (other, count) :: countLabel label rest

namespace Metrics

/-- The metrics of an engine that has done nothing yet. -/
def zero : Metrics where
  timeLimits := 0
  remainingTimes := 0
  missingPrices := 0
  solutions := 0
  reveals := .zero
  settles := .zero
  notifications := []
  quotes := .zero
  cacheSize := 0

def solving (metrics : Metrics) : Metrics :=
  { metrics with timeLimits := metrics.timeLimits + 1 }

def solved (metrics : Metrics) (found : Nat) : Metrics :=
  { metrics with
    remainingTimes := metrics.remainingTimes + 1
    solutions := metrics.solutions + found }

/-- A solution could not be settled. -/
def unsettled (metrics : Metrics) : SettlementError → Metrics
  | .missingPrice _ => { metrics with missingPrices := metrics.missingPrices + 1 }

/-- A solution was revealed or not. -/
def revealed {α : Type} (metrics : Metrics) (outcome : Except LookupError α) : Metrics :=
  { metrics with reveals := metrics.reveals.count outcome }

/-- A solution that is to be settled was known or not. -/
def settled {α : Type} (metrics : Metrics) (outcome : Except LookupError α) : Metrics :=
  { metrics with settles := metrics.settles.count outcome }

/-- A notification of a kind has arrived. -/
def notified (metrics : Metrics) (label : String) : Metrics :=
  { metrics with notifications := countLabel label metrics.notifications }

/-- A quote was given or not. -/
def quoted {α : Type} (metrics : Metrics) (outcome : Except QuoteError α) : Metrics :=
  { metrics with quotes := metrics.quotes.count outcome }

/-- The cache holds so many solutions now. -/
def cacheSized (metrics : Metrics) (size : Nat) : Metrics := { metrics with cacheSize := size }

end Metrics

end BatchAuction
