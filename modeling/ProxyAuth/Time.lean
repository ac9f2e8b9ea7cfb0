/-!
# Durations and clocks

Two clocks are read.  The wall clock can be set to any time, before 1970 too, and dates nonces;
the monotonic clock only moves forward and dates the memory of authenticated clients.  Both count
nanoseconds.  A monotonic reading has a bounded range, so adding a duration to one can fail
(`Instant.after`).
-/

namespace ProxyAuth

/-- A length of time. -/
structure Duration where
  nanoseconds : Nat
  deriving DecidableEq

/-- A reading of the monotonic clock. -/
structure Instant where
  nanoseconds : Nat
  deriving DecidableEq

/-- A reading of the wall clock, from the start of 1970. -/
structure WallTime where
  nanoseconds : Int
  deriving DecidableEq

/-- What both clocks show at one moment. -/
structure Clocks where
  wall : WallTime
  monotonic : Instant
  deriving DecidableEq

/-- The only way in which the arithmetic of clocks fails. -/
inductive ClockFault
  | deadlineOutOfRange
  deriving DecidableEq

/-- The wording of a clock fault. -/
def ClockFault.message : ClockFault → List Char
  | .deadlineOutOfRange => "overflow when adding duration to instant".toList

/-- Nanoseconds in a second. -/
def nanosecondsPerSecond : Nat := 1000000000

namespace Duration

/-- Seconds and further nanoseconds. -/
def ofParts (seconds nanoseconds : Nat) : Duration :=
  ⟨seconds * nanosecondsPerSecond + nanoseconds⟩

/-- A number of seconds. -/
def ofSeconds (seconds : Nat) : Duration := ofParts seconds 0

/-- A number of milliseconds. -/
def ofMilliseconds (n : Nat) : Duration := ⟨n * 1000000⟩

/-- The whole seconds of a duration. -/
def seconds (d : Duration) : Nat := d.nanoseconds / nanosecondsPerSecond

/-- The nanoseconds beyond the whole seconds. -/
def subseconds (d : Duration) : Nat := d.nanoseconds % nanosecondsPerSecond

@[simp] theorem seconds_ofSeconds (n : Nat) : (ofSeconds n).seconds = n := by
  simp [seconds, ofSeconds, ofParts, nanosecondsPerSecond]

end Duration

namespace Instant

/-- The largest number of whole seconds that the monotonic clock can show. -/
def maxSeconds : Nat := 0x7fffffffffffffff

/-- The instant a duration later, if the clock can show it. -/
def after (t : Instant) (d : Duration) : Except ClockFault Instant :=
  let n := t.nanoseconds + d.nanoseconds
  if n / nanosecondsPerSecond ≤ maxSeconds then .ok ⟨n⟩ else .error .deadlineOutOfRange

/-- The instant a duration later, on a clock that never ends. -/
def advance (t : Instant) (d : Duration) : Instant := ⟨t.nanoseconds + d.nanoseconds⟩

/-- A successful addition is the plain sum. -/
theorem eq_advance_of_after {t u : Instant} {d : Duration} (h : t.after d = .ok u) :
    u = t.advance d := by
  unfold after at h
  simp only at h
  split at h
  · exact (Except.ok.inj h).symm
  · cases h

end Instant

namespace WallTime

/-- Seconds and further nanoseconds from the start of 1970. -/
def ofParts (seconds : Int) (nanoseconds : Nat) : WallTime :=
  ⟨seconds * nanosecondsPerSecond + nanoseconds⟩

/-- Whole seconds from the start of 1970, rounded down; no time before counts. -/
def unixSeconds (t : WallTime) : Nat := (t.nanoseconds / (nanosecondsPerSecond : Int)).toNat

/-- The wall time a duration later. -/
def advance (t : WallTime) (d : Duration) : WallTime := ⟨t.nanoseconds + d.nanoseconds⟩

end WallTime

/-- Let both clocks move on. -/
def Clocks.advance (c : Clocks) (d : Duration) : Clocks :=
  ⟨c.wall.advance d, c.monotonic.advance d⟩

end ProxyAuth
