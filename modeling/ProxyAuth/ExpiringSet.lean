import ProxyAuth.Text
import ProxyAuth.Time

/-!
# Expiring sets

A set of keys, each with a deadline that lies a fixed lifetime after the key was last added.  A key
is a member until its deadline.  Keys past their deadline may linger: a look-up removes the one it
meets, `purge` removes all; membership never depends on it.
-/

namespace ProxyAuth

/-- Keys with their deadlines; each key occurs once. -/
structure ExpiringSet where
  lifetime : Duration
  entries : List (Text × Instant)
  deriving DecidableEq

namespace ExpiringSet

/-- What a look-up finds. -/
inductive Lookup
  | live
  /-- The key was there, past its deadline. -/
  | expired
  | absent
  deriving DecidableEq

/-- The set without keys. -/
def empty (lifetime : Duration) : ExpiringSet := ⟨lifetime, []⟩

/-- The number of stored keys, expired ones included. -/
def size (s : ExpiringSet) : Nat := s.entries.length

/-- The deadline of a stored key. -/
def deadline? (s : ExpiringSet) (key : Text) : Option Instant := s.entries.lookup key

/-- Whether a deadline lies in the future. -/
def isLive (now : Instant) (deadline : Instant) : Bool := now.nanoseconds < deadline.nanoseconds

/-- The set without a key. -/
def erase (s : ExpiringSet) (key : Text) : ExpiringSet :=
  { s with entries := s.entries.filter fun entry => entry.1 ≠ key }

/-- Look a key up. -/
def lookup (s : ExpiringSet) (now : Instant) (key : Text) : Lookup :=
  match s.deadline? key with
  | none => .absent
  | some deadline => if isLive now deadline then .live else .expired

/-- The set after a look-up: an expired key that was met is gone. -/
def afterLookup (s : ExpiringSet) (now : Instant) (key : Text) : ExpiringSet :=
  if s.lookup now key = .expired then s.erase key else s

/-- Store a key with a deadline, in place of the one it had. -/
def put (s : ExpiringSet) (key : Text) (deadline : Instant) : ExpiringSet :=
  { s with entries := (key, deadline) :: (s.erase key).entries }

/-- Add a key, or start its lifetime anew.  Fails if the clock cannot show the deadline. -/
def add (s : ExpiringSet) (now : Instant) (key : Text) : Except ClockFault ExpiringSet :=
  (now.after s.lifetime).map (s.put key)

/-- What a purge leaves, and how many keys it removed. -/
structure Purged where
  set : ExpiringSet
  removed : Nat
  deriving DecidableEq

/-- Remove the expired keys. -/
def purge (s : ExpiringSet) (now : Instant) : Purged where
  set := { s with entries := s.entries.filter fun entry => isLive now entry.2 }
  removed := s.entries.countP fun entry => !isLive now entry.2

@[simp] theorem deadline?_empty (lifetime : Duration) (key : Text) :
    (empty lifetime).deadline? key = none := rfl

@[simp] theorem size_empty (lifetime : Duration) : (empty lifetime).size = 0 := rfl

/-- Every key is left or removed. -/
theorem size_purge_add_removed (s : ExpiringSet) (now : Instant) :
    (s.purge now).set.size + (s.purge now).removed = s.size := by
  have hsplit := s.entries.length_eq_countP_add_countP fun entry => isLive now entry.2
  simpa [purge, size, List.countP_eq_length_filter] using hsplit.symm

@[simp] theorem deadline?_put_self (s : ExpiringSet) (key : Text) (deadline : Instant) :
    (s.put key deadline).deadline? key = some deadline := by
  simp [deadline?, put]

end ExpiringSet

end ProxyAuth
