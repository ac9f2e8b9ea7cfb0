import Mathlib.Tactic
import ProxyAuth.Proofs.Gate.Answer

/-!
# Runs of a gate

A gate answers requests while both clocks go on, the wall clock is set, and expired clients are
removed.  A run is any list of such steps, and the visits of a run are the requests it answered, the
first one first.

* `run_append`, `visits_append`: runs can be cut anywhere;
* `monotonic_le_run`: the monotonic clock never goes back;
* `deadline?_reply_self`, `deadline?_reply_of_ne`: what a request does to the entry of its client
  and to those of others;
* `distinctKeys_run`, `lifetime_run`: what no step changes about the known clients.
-/

namespace ProxyAuth.Gate

/-- What can happen to a gate. -/
inductive Step
  /-- A request arrives; writing fails with the text `writeFault`, if there is one. -/
  | request (link : Link) (request : Request) (writeFault : Option Text)
  /-- Both clocks go on. -/
  | wait (d : Duration)
  /-- The wall clock is set, forwards or backwards. -/
  | setWall (time : WallTime)
  /-- Expired clients are removed. -/
  | purge
  /-- The sweeper runs. -/
  | sweep

/-- Clocks, known clients and their sweeper. -/
structure State where
  now : Clocks
  known : ExpiringSet
  sweeper : Sweeper

/-- The state before any client is known. -/
def State.start (now : Clocks) (lifetime : Duration) (sweeper : Sweeper) : State :=
  ⟨now, .empty lifetime, sweeper⟩

/-- A request and what came of it. -/
structure Visit where
  now : Clocks
  link : Link
  request : Request
  reply : Reply

variable (policy : Policy)

/-- The answer to a request in a state. -/
def State.reply (s : State) (link : Link) (request : Request) (writeFault : Option Text) : Reply :=
  authenticate policy s.known s.now link request writeFault

/-- The state after a step. -/
def State.next (s : State) : Step → State
  | .request link request writeFault =>
      { s with known := (s.reply policy link request writeFault).known }
  | .wait d => { s with now := s.now.advance d }
  | .setWall time => { s with now := ⟨time, s.now.monotonic⟩ }
  | .purge => { s with known := (s.known.purge s.now.monotonic).set }
  | .sweep =>
      { s with
        known := (s.sweeper.sweep s.now.monotonic s.known).set
        sweeper := s.sweeper.run s.now.monotonic }

/-- The visit of a step, if the step is a request. -/
def State.visit? (s : State) : Step → Option Visit
  | .request link request writeFault =>
      some ⟨s.now, link, request, s.reply policy link request writeFault⟩
  | .wait _ | .setWall _ | .purge | .sweep => none

/-- The state after a list of steps. -/
def run (s : State) (steps : List Step) : State := steps.foldl (State.next policy) s

/-- The visits of a list of steps. -/
def visits (s : State) : List Step → List Visit
  | [] => []
  | step :: steps => (s.visit? policy step).toList ++ visits (s.next policy step) steps

@[simp] theorem run_nil (s : State) : run policy s [] = s := rfl

@[simp] theorem run_cons (s : State) (step : Step) (steps : List Step) :
    run policy s (step :: steps) = run policy (s.next policy step) steps := rfl

theorem run_append (s : State) (a b : List Step) :
    run policy s (a ++ b) = run policy (run policy s a) b :=
  List.foldl_append

@[simp] theorem visits_nil (s : State) : visits policy s [] = [] := rfl

@[simp] theorem visits_cons (s : State) (step : Step) (steps : List Step) :
    visits policy s (step :: steps) =
      (s.visit? policy step).toList ++ visits policy (s.next policy step) steps := rfl

theorem visits_append (s : State) (a b : List Step) :
    visits policy s (a ++ b) = visits policy s a ++ visits policy (run policy s a) b := by
  induction a generalizing s with
  | nil => rfl
  | cons step a ih =>
    rw [List.cons_append, visits_cons, ih, visits_cons, run_cons, List.append_assoc]

variable {policy}

/-! ### The monotonic clock -/

theorem monotonic_le_next (s : State) (step : Step) :
    s.now.monotonic.nanoseconds ≤ (s.next policy step).now.monotonic.nanoseconds := by
  -- Only waiting moves the monotonic clock.
  cases step with
  | wait d => exact Nat.le_add_right _ _
  | _ => exact le_rfl

theorem monotonic_le_run (s : State) (steps : List Step) :
    s.now.monotonic.nanoseconds ≤ (run policy s steps).now.monotonic.nanoseconds := by
  induction steps generalizing s with
  | nil => exact le_rfl
  | cons step steps ih => exact (monotonic_le_next s step).trans (ih _)

/-! ### The known clients -/

open ExpiringSet

theorem known_reply_of_open (h : policy.required = false) (s : State) (link : Link)
    (request : Request) (writeFault : Option Text) :
    (s.reply policy link request writeFault).known = s.known := by
  rw [State.reply, authenticate_open request writeFault h]
  rfl

/-- A request leaves the known clients as they are, looks one up, or looks one up and adds it. -/
theorem known_reply_cases (s : State) (link : Link) (request : Request)
    (writeFault : Option Text) :
    let remaining := s.known.afterLookup s.now.monotonic (clientKey link)
    let known := (s.reply policy link request writeFault).known
    known = s.known ∨ known = remaining ∨
      known = remaining.put (clientKey link) (s.now.monotonic.advance s.known.lifetime) := by
  intro remaining known
  by_cases hrequired : policy.required = true
  · obtain ⟨hadded, hkept⟩ :=
      known_authenticate hrequired s.known s.now link request writeFault
    by_cases hdigest : (s.reply policy link request writeFault).outcome =
        .ok (.authenticated .digest)
    · exact .inr (.inr (hadded hdigest))
    · exact .inr (.inl (hkept hdigest))
  · exact .inl (known_reply_of_open (by simpa using hrequired) s link request writeFault)

/-- A request leaves the entries of other clients alone. -/
theorem deadline?_reply_of_ne {link : Link} {key : Text} (h : key ≠ clientKey link) (s : State)
    (request : Request) (writeFault : Option Text) :
    (s.reply policy link request writeFault).known.deadline? key = s.known.deadline? key := by
  have hremaining : (s.known.afterLookup s.now.monotonic (clientKey link)).deadline? key =
      s.known.deadline? key := by
    rw [deadline?_afterLookup, if_neg fun hself => h hself.1]
  rcases known_reply_cases s link request writeFault with hk | hk | hk
  · rw [hk]
  · rw [hk, hremaining]
  · rw [hk, deadline?_put, if_neg h, hremaining]

/-- The entry of a client after its request. -/
theorem deadline?_reply_self (h : policy.required = true) (s : State) (link : Link)
    (request : Request) (writeFault : Option Text) :
    (s.reply policy link request writeFault).known.deadline? (clientKey link) =
      if (s.reply policy link request writeFault).outcome = .ok (.authenticated .digest) then
        some (s.now.monotonic.advance s.known.lifetime)
      else if s.known.lookup s.now.monotonic (clientKey link) = .expired then none
      else s.known.deadline? (clientKey link) := by
  obtain ⟨hadded, hkept⟩ := known_authenticate h s.known s.now link request writeFault
  split_ifs with hdigest hexpired
  · rw [State.reply, hadded hdigest, deadline?_put_self]
  · rw [State.reply, hkept hdigest, deadline?_afterLookup, if_pos ⟨rfl, hexpired⟩]
  · rw [State.reply, hkept hdigest, deadline?_afterLookup, if_neg fun hself => hexpired hself.2]

theorem distinctKeys_next {s : State} (h : s.known.DistinctKeys) (step : Step) :
    (s.next policy step).known.DistinctKeys := by
  cases step with
  | request link request writeFault =>
    have hremaining := h.afterLookup s.now.monotonic (clientKey link)
    show (s.reply policy link request writeFault).known.DistinctKeys
    rcases known_reply_cases s link request writeFault with hk | hk | hk <;> rw [hk]
    · exact h
    · exact hremaining
    · exact hremaining.put ..
  | wait d => exact h
  | setWall time => exact h
  | purge => exact h.purge s.now.monotonic
  | sweep => exact h.sweep s.sweeper s.now.monotonic

theorem lifetime_next (s : State) (step : Step) :
    (s.next policy step).known.lifetime = s.known.lifetime := by
  cases step with
  | request link request writeFault =>
    show (s.reply policy link request writeFault).known.lifetime = _
    rcases known_reply_cases s link request writeFault with hk | hk | hk <;> rw [hk]
    · exact lifetime_afterLookup ..
    · exact lifetime_afterLookup ..
  | wait d => rfl
  | setWall time => rfl
  | purge => rfl
  | sweep => exact lifetime_sweep ..

theorem distinctKeys_run {s : State} (h : s.known.DistinctKeys) (steps : List Step) :
    (run policy s steps).known.DistinctKeys := by
  induction steps generalizing s with
  | nil => exact h
  | cons step steps ih => exact ih (distinctKeys_next h step)

@[simp] theorem lifetime_run (s : State) (steps : List Step) :
    (run policy s steps).known.lifetime = s.known.lifetime := by
  induction steps generalizing s with
  | nil => rfl
  | cons step steps ih => exact (ih _).trans (lifetime_next s step)

end ProxyAuth.Gate
