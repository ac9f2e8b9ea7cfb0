import Mathlib.Tactic
import ProxyAuth.Proofs.ExpiringSet

/-!
# A set that remembers times

Expired keys leave a set when they are looked up, when the set is purged, or not at all, so what is
stored depends on how the set was used.  What it answers does not: a `Ledger` that keeps for each
key the time at which it was last added, and forgets nothing, answers the same on every run.

* `Tracks.next`, `Tracks.run`: set and ledger stay together;
* `Tracks.lookup_eq_live_iff`, `Tracks.lookup_eq_expired_iff`: what is found, by the ledger;
* `Tracks.answers_thinned`: steps that only look or remove can be left out unnoticed.
-/

namespace ProxyAuth.ExpiringSet

/-! ### Runs -/

/-- What can happen to an expiring set. -/
inductive Step
  | add (key : Text)
  /-- A key is looked up. -/
  | look (key : Text)
  | wait (d : Duration)
  | purge
  /-- The sweeper runs. -/
  | sweep
  deriving DecidableEq

/-- The step adds nothing and takes no time. -/
def Step.IsSilent : Step → Prop
  | .look _ | .purge | .sweep => True
  | .add _ | .wait _ => False

/-- The time, a set and its sweeper. -/
structure State where
  now : Instant
  set : ExpiringSet
  sweeper : Sweeper

namespace State

/-- A set without keys. -/
def start (now : Instant) (lifetime : Duration) (sweeper : Sweeper) : State :=
  ⟨now, .empty lifetime, sweeper⟩

/-- The state after a step; nothing comes of adding a key whose deadline the clock cannot show. -/
def next (s : State) : Step → State
  | .add key =>
      match s.set.add s.now key with
      | .error _ => s
      | .ok set => { s with set := set }
  | .look key => { s with set := s.set.afterLookup s.now key }
  | .wait d => { s with now := s.now.advance d }
  | .purge => { s with set := (s.set.purge s.now).set }
  | .sweep =>
      { s with set := (s.sweeper.sweep s.now s.set).set, sweeper := s.sweeper.run s.now }

/-- The state after a list of steps. -/
def run (s : State) (steps : List Step) : State := steps.foldl next s

/-- Whether the key is a member, if the step looks one up. -/
def answer? (s : State) : Step → Option Bool
  | .look key => some (s.set.lookup s.now key = .live)
  | .add _ | .wait _ | .purge | .sweep => none

/-- The answers of a list of steps, one for each. -/
def answers (s : State) : List Step → List (Option Bool)
  | [] => []
  | step :: steps => s.answer? step :: answers (s.next step) steps

theorem run_append (s : State) (a b : List Step) : s.run (a ++ b) = (s.run a).run b :=
  List.foldl_append

theorem now_le_next (s : State) (step : Step) :
    s.now.nanoseconds ≤ (s.next step).now.nanoseconds := by
  cases step with
  | wait d => exact Nat.le_add_right _ _
  | add key =>
    rw [next]
    split <;> exact le_rfl
  | _ => exact le_rfl

theorem now_le_run (s : State) (steps : List Step) :
    s.now.nanoseconds ≤ (s.run steps).now.nanoseconds := by
  induction steps generalizing s with
  | nil => exact le_rfl
  | cons step steps ih => exact (now_le_next s step).trans (ih _)

end State

/-! ### The ledger -/

/-- The time, and when each key was last added. -/
structure Ledger where
  now : Instant
  last? : Text → Option Instant

namespace Ledger

/-- Nothing was added yet. -/
def start (now : Instant) : Ledger := ⟨now, fun _ => none⟩

/-- The ledger after a step.  Of all steps only additions are written down. -/
def next (ttl : Duration) (r : Ledger) : Step → Ledger
  | .add key =>
      if (r.now.advance ttl).InRange then
        { r with last? := Function.update r.last? key (some r.now) }
      else r
  | .wait d => { r with now := r.now.advance d }
  | .look _ | .purge | .sweep => r

/-- The ledger after a list of steps. -/
def run (ttl : Duration) (r : Ledger) (steps : List Step) : Ledger := steps.foldl (next ttl) r

theorem next_of_isSilent {ttl : Duration} {step : Step} (h : step.IsSilent) (r : Ledger) :
    r.next ttl step = r := by
  cases step with
  | add key => cases h
  | wait d => cases h
  | look key => rfl
  | purge => rfl
  | sweep => rfl

theorem run_concat (ttl : Duration) (r : Ledger) (steps : List Step) (step : Step) :
    r.run ttl (steps ++ [step]) = (r.run ttl steps).next ttl step :=
  List.foldl_append

end Ledger

/-- The set stores nothing but what the ledger tells, and all of it that has not expired. -/
structure Tracks (ttl : Duration) (s : State) (r : Ledger) : Prop where
  now : s.now = r.now
  lifetime : s.set.lifetime = ttl
  distinct : s.set.DistinctKeys
  stored : ∀ key deadline, s.set.deadline? key = some deadline →
    (r.last? key).map (·.advance ttl) = some deadline
  live : ∀ key, s.set.liveDeadline? s.now key =
    ((r.last? key).map (·.advance ttl)).filter (isLive s.now)

theorem tracks_start (now : Instant) (ttl : Duration) (sweeper : Sweeper) :
    Tracks ttl (State.start now ttl sweeper) (Ledger.start now) where
  now := rfl
  lifetime := rfl
  distinct := distinctKeys_empty ttl
  stored _ _ h := by cases h
  live _ := rfl

namespace Tracks

variable {ttl : Duration} {s s' : State} {r : Ledger}

/-- A key whose deadline the clock can show is stored and written down. -/
theorem add (h : Tracks ttl s r) (key : Text) :
    Tracks ttl (s.next (.add key)) (r.next ttl (.add key)) := by
  have hadd {set : ExpiringSet} : s.set.add s.now key = .ok set ↔
      (s.now.advance ttl).InRange ∧ set = s.set.put key (s.now.advance ttl) := by
    rw [add_eq_ok_iff, h.lifetime]
  rw [State.next, Ledger.next, ← h.now]
  cases hset : s.set.add s.now key with
  | error fault =>
    have hrange : ¬ (s.now.advance ttl).InRange := fun hrange => by
      cases hset.symm.trans (hadd.mpr ⟨hrange, rfl⟩)
    rw [if_neg hrange]
    exact h
  | ok set =>
    obtain ⟨hrange, rfl⟩ := hadd.mp hset
    rw [if_pos hrange]
    refine ⟨rfl, h.lifetime, h.distinct.put .., fun k deadline hk => ?_, fun k => ?_⟩
    · simp only [deadline?_put] at hk
      simp only [Function.update_apply]
      split_ifs at hk ⊢ with hkey
      · exact hk
      · exact h.stored k deadline hk
    · simp only [liveDeadline?_put, Function.update_apply]
      split_ifs with hkey
      · rfl
      · exact h.live k

/-- Where keys leave a set only after they have expired, the ledger need not know. -/
theorem remove (h : Tracks ttl s r) {set : ExpiringSet} {sweeper : Sweeper}
    (hlifetime : set.lifetime = s.set.lifetime) (hdistinct : set.DistinctKeys)
    (hstored : ∀ key deadline, set.deadline? key = some deadline →
      s.set.deadline? key = some deadline)
    (hlive : ∀ key, set.liveDeadline? s.now key = s.set.liveDeadline? s.now key) :
    Tracks ttl ⟨s.now, set, sweeper⟩ r where
  now := h.now
  lifetime := hlifetime.trans h.lifetime
  distinct := hdistinct
  stored key deadline hkey := h.stored key deadline (hstored key deadline hkey)
  live key := (hlive key).trans (h.live key)

theorem wait (h : Tracks ttl s r) (d : Duration) :
    Tracks ttl (s.next (.wait d)) (r.next ttl (.wait d)) where
  now := congrArg (·.advance d) h.now
  lifetime := h.lifetime
  distinct := h.distinct
  stored := h.stored
  live key := liveDeadline?_later (Nat.le_add_right _ _) (h.live key)

/-- One step keeps set and ledger together. -/
theorem next (h : Tracks ttl s r) (step : Step) : Tracks ttl (s.next step) (r.next ttl step) := by
  have hpurged (key : Text) (deadline : Instant)
      (hkey : (s.set.purge s.now).set.deadline? key = some deadline) :
      s.set.deadline? key = some deadline := by
    rw [deadline?_purge h.distinct] at hkey
    exact (Option.filter_eq_some_iff.mp hkey).1
  cases step with
  | add key => exact h.add key
  | wait d => exact h.wait d
  | look key =>
    refine h.remove (lifetime_afterLookup ..) (h.distinct.afterLookup ..) (fun k deadline hk => ?_)
      (liveDeadline?_afterLookup s.set s.now key)
    rw [deadline?_afterLookup] at hk
    split_ifs at hk
    exact hk
  | purge => exact h.remove rfl (h.distinct.purge _) hpurged (liveDeadline?_purge h.distinct s.now)
  | sweep =>
    refine h.remove (lifetime_sweep ..) (h.distinct.sweep ..) (fun k deadline hk => ?_)
      (liveDeadline?_sweep h.distinct s.sweeper s.now)
    unfold Sweeper.sweep at hk
    split_ifs at hk
    · exact hpurged k deadline hk
    · exact hk

theorem run (h : Tracks ttl s r) (steps : List Step) :
    Tracks ttl (s.run steps) (r.run ttl steps) := by
  induction steps generalizing s r with
  | nil => exact h
  | cons step steps ih => exact ih (h.next step)

/-- A key is a member for one lifetime after it was last added. -/
theorem lookup_eq_live_iff (h : Tracks ttl s r) (key : Text) :
    s.set.lookup s.now key = .live ↔ ∃ time, r.last? key = some time ∧
      s.now.nanoseconds < time.nanoseconds + ttl.nanoseconds := by
  rw [ExpiringSet.lookup_eq_live_iff, h.live]
  cases r.last? key with
  | none => simp
  | some time =>
    simp only [Option.map_some, Option.isSome_filter, Option.any_some, isLive_iff, Instant.advance,
      Option.some.injEq, exists_eq_left']

/-- A key that is stored has expired one lifetime after it was last added. -/
theorem lookup_eq_expired_iff (h : Tracks ttl s r) (key : Text) :
    s.set.lookup s.now key = .expired ↔ (s.set.deadline? key).isSome ∧
      ∃ time, r.last? key = some time ∧
        time.nanoseconds + ttl.nanoseconds ≤ s.now.nanoseconds := by
  rw [ExpiringSet.lookup_eq_expired_iff]
  cases hkey : s.set.deadline? key with
  | none => simp
  | some deadline =>
    obtain ⟨time, htime, rfl⟩ := Option.map_eq_some_iff.mp (h.stored key deadline hkey)
    simp [htime, isLive, Instant.advance]

/-- Sets that the same ledger tells of answer alike. -/
theorem answer?_eq (h : Tracks ttl s r) (h' : Tracks ttl s' r) (step : Step) :
    s.answer? step = s'.answer? step := by
  cases step with
  | look key =>
    have hnow : s.now = s'.now := h.now.trans h'.now.symm
    have hiff : s.set.lookup s.now key = .live ↔ s'.set.lookup s'.now key = .live := by
      rw [h.lookup_eq_live_iff, h'.lookup_eq_live_iff, hnow]
    simp only [State.answer?, hiff]
  | _ => rfl

/-- Whichever of the steps that only look or remove are left out, the answers of the others stay. -/
theorem answers_thinned (h : Tracks ttl s r) (h' : Tracks ttl s' r) (marked : List (Step × Bool))
    (hsilent : ∀ p ∈ marked, p.2 = false → p.1.IsSilent) :
    s'.answers ((marked.filter (·.2)).map (·.1)) =
      ((marked.zip (s.answers (marked.map (·.1)))).filter (·.1.2)).map (·.2) := by
  induction marked generalizing s s' r with
  | nil => rfl
  | cons p marked ih =>
    obtain ⟨step, kept⟩ := p
    have hrest : ∀ q ∈ marked, q.2 = false → q.1.IsSilent :=
      fun q hq => hsilent q (List.mem_cons_of_mem _ hq)
    cases kept with
    | true =>
      simp only [List.filter_cons_of_pos, List.map_cons, State.answers, List.zip_cons_cons]
      rw [h'.answer?_eq h step, ih (h.next step) (h'.next step) hrest]
    | false =>
      -- The set that takes the step stays with the ledger, which does not notice it.
      have hstep : step.IsSilent := hsilent (step, false) List.mem_cons_self rfl
      have hnext := h.next step
      rw [Ledger.next_of_isSilent hstep] at hnext
      simp only [List.map_cons, State.answers, List.zip_cons_cons]
      rw [List.filter_cons_of_neg (by simp), List.filter_cons_of_neg (by simp)]
      exact ih hnext h' hrest

end Tracks

end ProxyAuth.ExpiringSet
