import Mathlib.Tactic
import ProxyAuth.Proofs.ExpiringSet.Ledger

/-!
# How long expired keys linger

Between two purges of its sweeper a set may store keys that have expired.  None of them expired
before the last purge: what was stored then had not expired, and what is added later expires later
still.  The sweeper purges anew in its first turn an interval or more after the last purge, however
far time has moved on.  So after each turn of the sweeper no stored key expired as long as an
interval ago.

* `State.KeepsPurged`: nothing stored expired before the last purge;
* `State.RecentlyPurged`: the last purge is less than an interval ago;
* `expired_less_than_interval_ago`: what follows from both, on every run.
-/

namespace ProxyAuth.ExpiringSet

/-! ### Stored entries -/

section

variable {s : ExpiringSet} {now : Instant} {key : Text} {deadline : Instant}
  {entry : Text × Instant}

theorem eq_or_mem_of_mem_put (h : entry ∈ (s.put key deadline).entries) :
    entry = (key, deadline) ∨ entry ∈ s.entries :=
  (List.mem_cons.mp h).imp_right List.mem_of_mem_filter

theorem mem_of_mem_afterLookup (h : entry ∈ (s.afterLookup now key).entries) :
    entry ∈ s.entries := by
  unfold afterLookup at h
  split_ifs at h
  · exact List.mem_of_mem_filter h
  · exact h

theorem mem_purge_iff : entry ∈ (s.purge now).set.entries ↔
    entry ∈ s.entries ∧ now.nanoseconds < entry.2.nanoseconds := by
  rw [purge, List.mem_filter, isLive_iff]

end

/-! ### The sweeper's last purge -/

namespace State

variable {s : State} {step : Step} {steps : List Step}

/-- The sweeper's last purge does not lie ahead, and nothing stored expired before it. -/
def KeepsPurged (s : State) : Prop :=
  ∀ time, s.sweeper.lastPurge = some time → time.nanoseconds ≤ s.now.nanoseconds ∧
    ∀ entry ∈ s.set.entries, time.nanoseconds ≤ entry.2.nanoseconds

/-- The sweeper's last purge is less than an interval ago. -/
def RecentlyPurged (s : State) : Prop :=
  ∃ time, s.sweeper.lastPurge = some time ∧
    s.now.nanoseconds < time.nanoseconds + s.sweeper.interval.nanoseconds

/-- What a turn of the sweeper does. -/
theorem next_sweep_cases (s : State) :
    (s.next .sweep = { s with
        set := (s.set.purge s.now).set, sweeper := { s.sweeper with lastPurge := some s.now } }) ∨
      (s.RecentlyPurged ∧ s.next .sweep = s) := by
  rw [next, Sweeper.sweep, Sweeper.run]
  by_cases hdue : s.sweeper.isDue s.now = true
  · rw [if_pos hdue, if_pos hdue]
    exact .inl rfl
  · rw [if_neg hdue, if_neg hdue]
    refine .inr ⟨?_, rfl⟩
    unfold Sweeper.isDue at hdue
    cases hlast : s.sweeper.lastPurge with
    | none => simp [hlast] at hdue
    | some time => exact ⟨time, hlast, by simpa [hlast] using hdue⟩

/-- Whatever is removed, nothing is left that was not there. -/
theorem KeepsPurged.of_subset (h : s.KeepsPurged) {set : ExpiringSet}
    (hsubset : ∀ entry ∈ set.entries, entry ∈ s.set.entries) :
    KeepsPurged { s with set := set } := fun time htime =>
  ⟨(h time htime).1, fun entry hentry => (h time htime).2 entry (hsubset entry hentry)⟩

/-- Each step keeps what is known of the last purge. -/
theorem KeepsPurged.next (h : s.KeepsPurged) (step : Step) : (s.next step).KeepsPurged := by
  cases step with
  | add key =>
    rw [State.next]
    cases hset : s.set.add s.now key with
    | error fault => exact h
    | ok set =>
      obtain ⟨-, rfl⟩ := add_eq_ok_iff.mp hset
      refine fun time htime => ⟨(h time htime).1, fun entry hentry => ?_⟩
      obtain ⟨hle, hstored⟩ := h time htime
      rcases eq_or_mem_of_mem_put hentry with rfl | hentry
      · -- The key expires a lifetime from now, and the last purge is past.
        exact hle.trans (Nat.le_add_right _ _)
      · exact hstored entry hentry
  | look key => exact h.of_subset fun entry => mem_of_mem_afterLookup
  | wait d => exact fun time htime =>
      ⟨(h time htime).1.trans (Nat.le_add_right _ _), (h time htime).2⟩
  | purge => exact h.of_subset fun entry hentry => (mem_purge_iff.mp hentry).1
  | sweep =>
    rcases next_sweep_cases s with hnext | ⟨-, hnext⟩
    · rw [hnext]
      intro time htime
      obtain rfl := Option.some.inj htime
      exact ⟨le_rfl, fun entry hentry => (mem_purge_iff.mp hentry).2.le⟩
    · rw [hnext]
      exact h

theorem KeepsPurged.run (h : s.KeepsPurged) (steps : List Step) : (s.run steps).KeepsPurged := by
  induction steps generalizing s with
  | nil => exact h
  | cons step steps ih => exact ih (h.next step)

@[simp] theorem interval_next (s : State) (step : Step) :
    (s.next step).sweeper.interval = s.sweeper.interval := by
  cases step with
  | add key =>
    rw [next]
    split <;> rfl
  | sweep => rcases next_sweep_cases s with hnext | ⟨-, hnext⟩ <;> rw [hnext]
  | _ => rfl

@[simp] theorem interval_run (s : State) (steps : List Step) :
    (s.run steps).sweeper.interval = s.sweeper.interval := by
  induction steps generalizing s with
  | nil => rfl
  | cons step steps ih => exact (ih _).trans (interval_next s step)

/-- After a turn of the sweeper the last purge is less than an interval ago. -/
theorem recentlyPurged_sweep (hpos : 0 < s.sweeper.interval.nanoseconds) :
    (s.next .sweep).RecentlyPurged := by
  rcases next_sweep_cases s with hnext | ⟨hrecent, hnext⟩
  · rw [hnext]
    exact ⟨s.now, rfl, Nat.lt_add_of_pos_right hpos⟩
  · rw [hnext]
    exact hrecent

/-- A step that takes no time leaves it so. -/
theorem RecentlyPurged.next (h : s.RecentlyPurged) (hpos : 0 < s.sweeper.interval.nanoseconds)
    (hstep : ∀ d, step ≠ .wait d) : (s.next step).RecentlyPurged := by
  cases step with
  | add key =>
    rw [State.next]
    split <;> exact h
  | look key => exact h
  | wait d => exact absurd rfl (hstep d)
  | purge => exact h
  | sweep => exact recentlyPurged_sweep hpos

theorem RecentlyPurged.run (h : s.RecentlyPurged) (hpos : 0 < s.sweeper.interval.nanoseconds)
    (hsteps : ∀ d, .wait d ∉ steps) : (s.run steps).RecentlyPurged := by
  induction steps generalizing s with
  | nil => exact h
  | cons step steps ih =>
    refine ih (h.next hpos fun d he => hsteps d (he ▸ List.mem_cons_self)) ?_
      fun d hd => hsteps d (List.mem_cons_of_mem _ hd)
    rwa [interval_next]

/-- A stored key that expired did so after the last purge. -/
theorem KeepsPurged.lt_of_recentlyPurged (h : s.KeepsPurged) (hrecent : s.RecentlyPurged)
    {entry : Text × Instant} (hentry : entry ∈ s.set.entries) :
    s.now.nanoseconds < entry.2.nanoseconds + s.sweeper.interval.nanoseconds := by
  obtain ⟨time, htime, hlt⟩ := hrecent
  have hle : time.nanoseconds ≤ entry.2.nanoseconds := (h time htime).2 entry hentry
  omega

end State

/-- The sweeper has had a turn since time last moved on. -/
def HasSwept (steps : List Step) : Prop :=
  ∃ before after, steps = before ++ .sweep :: after ∧ ∀ d, .wait d ∉ after

/-- **How long expired keys linger.**  A sweeper is started on any set, and then keys are added and
looked up, the set may be purged, and time moves on, at any steps.  Whenever the sweeper has had a
turn since time last moved on, each key that is stored past its deadline expired less than an
interval ago. -/
theorem expired_less_than_interval_ago (now : Instant) (set : ExpiringSet) (interval : Duration)
    (hpos : 0 < interval.nanoseconds) (steps : List Step) (hswept : HasSwept steps) :
    let s := State.run ⟨now, set, .every interval⟩ steps
    ∀ entry ∈ s.set.entries, isLive s.now entry.2 = false →
      s.now.nanoseconds - entry.2.nanoseconds < interval.nanoseconds := by
  intro s entry hentry hexpired
  let start : State := ⟨now, set, .every interval⟩
  have hstart : start.KeepsPurged := nofun
  have hinterval : s.sweeper.interval = interval := State.interval_run start steps
  have hrecent : s.RecentlyPurged := by
    obtain ⟨before, after, hsteps, hafter⟩ := hswept
    have hs : s = ((start.run before).next .sweep).run after := by
      show start.run steps = _
      rw [hsteps, State.run_append]
      rfl
    have hbefore : 0 < (start.run before).sweeper.interval.nanoseconds := by
      rw [State.interval_run]
      exact hpos
    rw [hs]
    refine (State.recentlyPurged_sweep hbefore).run ?_ hafter
    rwa [State.interval_next]
  have hkeeps : s.KeepsPurged := hstart.run steps
  have hlt := hkeeps.lt_of_recentlyPurged hrecent hentry
  rw [hinterval] at hlt
  have hle : ¬ s.now.nanoseconds < entry.2.nanoseconds := by
    rw [← isLive_iff, hexpired]
    decide
  omega

/-- A key that expires right after a purge lingers until the next one, here for most of a minute. -/
theorem expired_fifty_eight_seconds_ago :
    let steps : List Step := [.sweep, .add ['a'], .wait (.ofSeconds 59), .sweep]
    let s := State.run ⟨⟨0⟩, .empty (.ofSeconds 1), .every (.ofSeconds 60)⟩ steps
    let entry : Text × Instant := (['a'], (⟨0⟩ : Instant).advance (.ofSeconds 1))
    0 < (Duration.ofSeconds 60).nanoseconds ∧ HasSwept steps ∧ entry ∈ s.set.entries ∧
      isLive s.now entry.2 = false ∧
      s.now.nanoseconds - entry.2.nanoseconds < (Duration.ofSeconds 60).nanoseconds := by
  intro steps s entry
  have hswept : HasSwept steps := ⟨steps.take 3, [], rfl, fun d => List.not_mem_nil⟩
  have hentry : entry ∈ s.set.entries := by decide
  have hexpired : isLive s.now entry.2 = false := by decide
  exact ⟨by decide, hswept, hentry, hexpired,
    expired_less_than_interval_ago ⟨0⟩ (.empty (.ofSeconds 1)) (.ofSeconds 60) (by decide) steps
      hswept entry hentry hexpired⟩

end ProxyAuth.ExpiringSet
