/-!
# Durations

Lengths of time in whole nanoseconds. Their seconds fit 64 bits.
-/

set_option autoImplicit false

namespace BatchAuction.Clock

def nanosPerSecond : Nat := 1000000000

/-- The first length of time that is too long. -/
def Duration.limit : Nat := UInt64.size * nanosPerSecond

structure Duration where
  nanos : Nat
  nanos_lt_limit : nanos < Duration.limit
deriving DecidableEq

namespace Duration

/-- A length of time in nanoseconds, if it is not too long. -/
def ofNanos? (nanos : Nat) : Option Duration :=
  if fits : nanos < limit then some ⟨nanos, fits⟩ else none

def zero : Duration := ⟨0, by decide⟩

/-- A number of seconds below 64 bits. -/
def ofSeconds (seconds : UInt64) : Duration :=
  ⟨seconds.toNat * nanosPerSecond, by
    have small := seconds.toNat_lt
    unfold limit nanosPerSecond UInt64.size
    omega⟩

def seconds (duration : Duration) : Nat := duration.nanos / nanosPerSecond

/-- The nanoseconds beyond the whole seconds. -/
def fraction (duration : Duration) : Nat := duration.nanos % nanosPerSecond

end Duration

end BatchAuction.Clock
