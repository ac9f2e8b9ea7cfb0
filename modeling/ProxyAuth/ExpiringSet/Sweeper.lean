import ProxyAuth.ExpiringSet

/-!
# Sweepers

A sweeper purges an expiring set at fixed intervals: at once when it first runs, and from then on
whenever it runs an interval or more after its last purge.
-/

namespace ProxyAuth

/-- The interval of a sweeper and the time of its last purge. -/
structure Sweeper where
  interval : Duration
  lastPurge : Option Instant
  deriving DecidableEq

namespace Sweeper

/-- A sweeper that has not run. -/
def every (interval : Duration) : Sweeper := ⟨interval, none⟩

/-- Whether the sweeper purges when it runs at a time. -/
def isDue (s : Sweeper) (now : Instant) : Bool :=
  match s.lastPurge with
  | none => true
  | some last => last.nanoseconds + s.interval.nanoseconds ≤ now.nanoseconds

/-- Let the sweeper run. -/
def run (s : Sweeper) (now : Instant) : Sweeper :=
  if s.isDue now then { s with lastPurge := some now } else s

/-- What the sweeper leaves of a set when it runs, and how many keys it removes. -/
def sweep (s : Sweeper) (now : Instant) (set : ExpiringSet) : ExpiringSet.Purged :=
  if s.isDue now then set.purge now else ⟨set, 0⟩

end Sweeper

end ProxyAuth
