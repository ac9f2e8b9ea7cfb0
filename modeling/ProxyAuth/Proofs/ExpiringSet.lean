import Mathlib.Tactic
import ProxyAuth.ExpiringSet.Sweeper
import ProxyAuth.Proofs.Fallible

/-!
# Live keys

Of an expiring set only the deadlines that lie ahead count.  The operations are described by what
they do to them: removing expired keys, in whatever way, does nothing; adding a key gives it the
deadline one lifetime from now; and time takes away those that pass.

* `Instant.InRange`, `Instant.after_eq_ok_iff`: deadlines that the clock can show;
* `deadline?_erase`, `deadline?_put`, `deadline?_purge`: what is stored after an operation;
* `liveDeadline?_afterLookup`, `liveDeadline?_purge`, `liveDeadline?_sweep`: expired keys do not
  count;
* `add_eq_ok_iff`, `liveDeadline?_put`, `liveDeadline?_later`: what does.
-/

namespace ProxyAuth

/-! ### Instants that the clock can show -/

namespace Instant

/-- The monotonic clock can show the instant. -/
def InRange (t : Instant) : Prop := t.nanoseconds / nanosecondsPerSecond ≤ maxSeconds

instance (t : Instant) : Decidable t.InRange := inferInstanceAs (Decidable (_ ≤ _))

theorem after_eq_ok_iff {t u : Instant} {d : Duration} :
    t.after d = .ok u ↔ (t.advance d).InRange ∧ u = t.advance d := by
  simp only [after, advance, InRange]
  split_ifs with h <;> simp [h, eq_comm]

theorem after_eq_error_iff {t : Instant} {d : Duration} (fault : ClockFault) :
    t.after d = .error fault ↔ ¬ (t.advance d).InRange := by
  cases fault
  simp only [after, advance, InRange]
  split_ifs with h <;> simp [h]

/-- Whole seconds are added to whole seconds. -/
theorem inRange_advance_ofSeconds {t : Instant} {seconds : Nat} :
    (t.advance (.ofSeconds seconds)).InRange ↔
      t.nanoseconds / nanosecondsPerSecond + seconds ≤ maxSeconds := by
  have hpos : 0 < nanosecondsPerSecond := by decide
  rw [InRange, advance, Duration.ofSeconds, Duration.ofParts, Nat.add_zero,
    Nat.add_mul_div_right _ _ hpos]

end Instant

namespace ExpiringSet

/-- No key is stored twice. -/
def DistinctKeys (s : ExpiringSet) : Prop := (s.entries.map Prod.fst).Nodup

/-- The deadline of a key that has not expired. -/
def liveDeadline? (s : ExpiringSet) (now : Instant) (key : Text) : Option Instant :=
  (s.deadline? key).filter (isLive now)

theorem isLive_iff {now deadline : Instant} :
    isLive now deadline = true ↔ now.nanoseconds < deadline.nanoseconds :=
  decide_eq_true_iff

/-! ### Stored keys -/

theorem distinctKeys_empty (lifetime : Duration) : (empty lifetime).DistinctKeys := List.nodup_nil

theorem DistinctKeys.filter {s : ExpiringSet} (h : s.DistinctKeys) (p : Text × Instant → Bool) :
    DistinctKeys { s with entries := s.entries.filter p } :=
  h.sublist (List.filter_sublist.map _)

theorem DistinctKeys.put {s : ExpiringSet} (h : s.DistinctKeys) (key : Text) (deadline : Instant) :
    (s.put key deadline).DistinctKeys := by
  refine List.nodup_cons.mpr ⟨?_, h.filter _⟩
  rintro hmem
  obtain ⟨entry, hentry, rfl⟩ := List.mem_map.mp hmem
  simpa using (List.mem_filter.mp hentry).2

theorem lookup_cons_if (entry : Text × Instant) (rest : List (Text × Instant)) (k : Text) :
    (entry :: rest).lookup k = if k = entry.1 then some entry.2 else rest.lookup k := by
  rw [List.lookup_cons]
  split_ifs with h
  · rw [h, beq_self_eq_true]
  · rw [beq_false_of_ne h]

/-- An expired key does not hide another entry, as no key is stored twice. -/
theorem lookup_filter_of_nodup {entries : List (Text × Instant)}
    (h : (entries.map Prod.fst).Nodup) (p : Instant → Bool) (k : Text) :
    (entries.filter fun entry => p entry.2).lookup k = (entries.lookup k).filter p := by
  induction entries with
  | nil => rfl
  | cons entry rest ih =>
    obtain ⟨hnew, hrest⟩ := List.nodup_cons.mp h
    have hk : k = entry.1 → rest.lookup k = none := by
      rintro rfl
      rw [List.lookup_eq_none_iff]
      intro other hother
      have hne : entry.1 ≠ other.1 := fun he => hnew (List.mem_map.mpr ⟨other, hother, he.symm⟩)
      simpa using hne
    rw [lookup_cons_if]
    by_cases hp : p entry.2 = true
    · rw [List.filter_cons, if_pos hp, lookup_cons_if, ih hrest]
      split_ifs with he
      · rw [Option.filter_some, if_pos hp]
      · rfl
    · -- The entry is dropped, and no other one of its key comes to light.
      rw [List.filter_cons, if_neg hp, ih hrest]
      split_ifs with he
      · rw [hk he, Option.filter_none, Option.filter_some, if_neg hp]
      · rfl

theorem deadline?_erase (s : ExpiringSet) (key k : Text) :
    (s.erase key).deadline? k = if k = key then none else s.deadline? k := by
  unfold deadline? erase
  dsimp only
  induction s.entries with
  | nil => simp
  | cons entry rest ih =>
    rw [lookup_cons_if]
    by_cases hentry : entry.1 = key
    · rw [List.filter_cons_of_neg (by simpa using hentry), ih]
      split_ifs with h he
      · rfl
      · exact absurd (he.trans hentry) h
      · rfl
    · rw [List.filter_cons_of_pos (by simpa using hentry), lookup_cons_if, ih]
      split_ifs with he h
      · exact absurd (he.symm.trans h) hentry
      all_goals rfl

theorem deadline?_put (s : ExpiringSet) (key : Text) (deadline : Instant) (k : Text) :
    (s.put key deadline).deadline? k = if k = key then some deadline else s.deadline? k := by
  have hcons : (s.put key deadline).deadline? k =
      if k = key then some deadline else (s.erase key).deadline? k :=
    lookup_cons_if _ _ _
  rw [hcons, deadline?_erase]
  split_ifs <;> rfl

theorem deadline?_purge {s : ExpiringSet} (h : s.DistinctKeys) (now : Instant) (k : Text) :
    (s.purge now).set.deadline? k = s.liveDeadline? now k :=
  lookup_filter_of_nodup h (isLive now) k

/-! ### Looking up -/

/-- A look-up finds out about the entry of the key only. -/
theorem lookup_congr {s t : ExpiringSet} {key : Text} (h : s.deadline? key = t.deadline? key)
    (now : Instant) : s.lookup now key = t.lookup now key := by
  rw [lookup, lookup, h]

theorem lookup_eq_live_iff {s : ExpiringSet} {now : Instant} {key : Text} :
    s.lookup now key = .live ↔ (s.liveDeadline? now key).isSome := by
  unfold lookup liveDeadline?
  cases s.deadline? key with
  | none => simp
  | some deadline => by_cases h : isLive now deadline = true <;> simp [h]

theorem lookup_eq_expired_iff {s : ExpiringSet} {now : Instant} {key : Text} :
    s.lookup now key = .expired ↔
      ∃ deadline, s.deadline? key = some deadline ∧ isLive now deadline = false := by
  unfold lookup
  cases s.deadline? key with
  | none => simp
  | some deadline => by_cases h : isLive now deadline = true <;> simp [h]

theorem DistinctKeys.afterLookup {s : ExpiringSet} (h : s.DistinctKeys) (now : Instant)
    (key : Text) : (s.afterLookup now key).DistinctKeys := by
  unfold ExpiringSet.afterLookup
  split_ifs
  · exact h.filter _
  · exact h

/-- A look-up removes the key where it has expired. -/
theorem deadline?_afterLookup (s : ExpiringSet) (now : Instant) (key k : Text) :
    (s.afterLookup now key).deadline? k =
      if k = key ∧ s.lookup now key = .expired then none else s.deadline? k := by
  unfold afterLookup
  by_cases hexpired : s.lookup now key = .expired
  · rw [if_pos hexpired, deadline?_erase]
    simp only [hexpired, and_true]
  · rw [if_neg hexpired, if_neg fun h => hexpired h.2]

/-- A key that is looked up in vain is not stored afterwards. -/
theorem deadline?_afterLookup_of_not_live {s : ExpiringSet} {now : Instant} {key : Text}
    (h : s.lookup now key ≠ .live) : (s.afterLookup now key).deadline? key = none := by
  rw [deadline?_afterLookup]
  cases hfound : s.lookup now key with
  | live => exact absurd hfound h
  | expired => exact if_pos ⟨rfl, rfl⟩
  | absent =>
    rw [if_neg (by simp)]
    unfold lookup at hfound
    cases hd : s.deadline? key with
    | none => rfl
    | some deadline =>
      simp only [hd] at hfound
      split_ifs at hfound

theorem afterLookup_eq_self {s : ExpiringSet} {key : Text} (h : s.deadline? key = none)
    (now : Instant) : s.afterLookup now key = s := by
  simp [afterLookup, lookup, h]

@[simp] theorem lifetime_afterLookup (s : ExpiringSet) (now : Instant) (key : Text) :
    (s.afterLookup now key).lifetime = s.lifetime := by
  unfold afterLookup
  split_ifs <;> rfl

/-- A look-up removes at most an expired key. -/
theorem liveDeadline?_afterLookup (s : ExpiringSet) (now : Instant) (key k : Text) :
    (s.afterLookup now key).liveDeadline? now k = s.liveDeadline? now k := by
  unfold liveDeadline?
  rw [deadline?_afterLookup]
  split_ifs with h
  · obtain ⟨rfl, hfound⟩ := h
    obtain ⟨deadline, hdeadline, hexpired⟩ := lookup_eq_expired_iff.mp hfound
    rw [hdeadline, Option.filter_some, hexpired]
    rfl
  · rfl

/-! ### Purging -/

theorem DistinctKeys.purge {s : ExpiringSet} (h : s.DistinctKeys) (now : Instant) :
    (s.purge now).set.DistinctKeys :=
  h.filter _

theorem liveDeadline?_purge {s : ExpiringSet} (h : s.DistinctKeys) (now : Instant) (k : Text) :
    (s.purge now).set.liveDeadline? now k = s.liveDeadline? now k := by
  rw [liveDeadline?, deadline?_purge h, liveDeadline?, Option.filter_filter]
  simp only [Bool.and_self]

theorem DistinctKeys.sweep {s : ExpiringSet} (h : s.DistinctKeys) (sweeper : Sweeper)
    (now : Instant) : (sweeper.sweep now s).set.DistinctKeys := by
  unfold Sweeper.sweep
  split_ifs
  · exact h.purge now
  · exact h

@[simp] theorem lifetime_sweep (s : ExpiringSet) (sweeper : Sweeper) (now : Instant) :
    (sweeper.sweep now s).set.lifetime = s.lifetime := by
  unfold Sweeper.sweep
  split_ifs <;> rfl

theorem liveDeadline?_sweep {s : ExpiringSet} (h : s.DistinctKeys) (sweeper : Sweeper)
    (now : Instant) (k : Text) :
    (sweeper.sweep now s).set.liveDeadline? now k = s.liveDeadline? now k := by
  unfold Sweeper.sweep
  split_ifs
  · exact liveDeadline?_purge h now k
  · rfl

/-! ### Adding, and the passing of time -/

theorem add_eq_ok_iff {s t : ExpiringSet} {now : Instant} {key : Text} :
    s.add now key = .ok t ↔
      (now.advance s.lifetime).InRange ∧ t = s.put key (now.advance s.lifetime) := by
  rw [add, map_eq_ok]
  constructor
  · rintro ⟨deadline, hdeadline, rfl⟩
    obtain ⟨hrange, rfl⟩ := Instant.after_eq_ok_iff.mp hdeadline
    exact ⟨hrange, rfl⟩
  · rintro ⟨hrange, rfl⟩
    exact ⟨_, Instant.after_eq_ok_iff.mpr ⟨hrange, rfl⟩, rfl⟩

theorem liveDeadline?_put (s : ExpiringSet) (now : Instant) (key : Text) (deadline : Instant)
    (k : Text) :
    (s.put key deadline).liveDeadline? now k =
      if k = key then (some deadline).filter (isLive now) else s.liveDeadline? now k := by
  unfold liveDeadline?
  rw [deadline?_put]
  split_ifs <;> rfl

/-- What is live later is live now. -/
theorem filter_isLive_later {now later : Instant} (h : now.nanoseconds ≤ later.nanoseconds)
    (deadline? : Option Instant) :
    (deadline?.filter (isLive now)).filter (isLive later) = deadline?.filter (isLive later) := by
  rw [Option.filter_filter]
  congr 1
  funext deadline
  have himp : isLive later deadline = true → isLive now deadline = true := fun hlater =>
    isLive_iff.mpr (Nat.lt_of_le_of_lt h (isLive_iff.mp hlater))
  by_cases hlater : isLive later deadline = true
  · rw [hlater, himp hlater]
    rfl
  · simp [hlater]

/-- What is known of the live deadlines stays known as time goes on. -/
theorem liveDeadline?_later {s : ExpiringSet} {now later : Instant} {key : Text}
    {deadline? : Option Instant} (hle : now.nanoseconds ≤ later.nanoseconds)
    (h : s.liveDeadline? now key = deadline?.filter (isLive now)) :
    s.liveDeadline? later key = deadline?.filter (isLive later) := by
  rw [liveDeadline?] at h ⊢
  rw [← filter_isLive_later hle, h, filter_isLive_later hle]

end ExpiringSet

end ProxyAuth
