import Mathlib.Tactic
import Mathlib.Data.Set.Card
import ProxyAuth.Proofs.ExpiringSet.Ledger

/-!
# An expiring set is a matter of last additions

The times that a `Ledger` keeps are those of steps that add a key, so what an expiring set answers,
removes and stores can be read off the steps of a run.

* `last?_eq_some_iff`: the ledger of a run in terms of its steps;
* `addsFit_of_inRange`: a run whose keys can all be added;
* `encard_stored`, `encard_live`, `encard_expired`: what is stored, counted;
* `refines_last_additions`: answers, removals and size of a set after every run.
-/

namespace ProxyAuth.ExpiringSet

/-! ### Last additions -/

/-- A list that ends in `x` is cut in front of its last element or before. -/
theorem concat_eq_append_cons {α : Type} {l before after : List α} {x y : α}
    (h : l ++ [x] = before ++ y :: after) :
    (l = before ∧ x = y ∧ after = []) ∨ ∃ rest, after = rest ++ [x] ∧ l = before ++ y :: rest := by
  rcases List.eq_nil_or_concat after with rfl | ⟨rest, z, rfl⟩
  · obtain ⟨hl, hx⟩ := List.append_inj' h rfl
    exact .inl ⟨hl, (List.cons.inj hx).1, rfl⟩
  · rw [List.concat_eq_append, ← List.cons_append, ← List.append_assoc] at h
    obtain ⟨hl, hx⟩ := List.append_inj' h rfl
    obtain rfl := (List.cons.inj hx).1
    exact .inr ⟨rest, List.concat_eq_append, hl⟩

namespace State

variable {s : State} {steps : List Step} {step : Step} {key : Text} {time : Instant}

/-- The last of the steps that add the key is taken at that time. -/
def LastAdded (s : State) (steps : List Step) (key : Text) (time : Instant) : Prop :=
  ∃ before after, steps = before ++ .add key :: after ∧ .add key ∉ after ∧ (s.run before).now = time

/-- The clock can show the deadline of every key that the steps add. -/
def AddsFit (s : State) (steps : List Step) : Prop :=
  ∀ before key after, steps = before ++ .add key :: after →
    ∃ set, (s.run before).set.add (s.run before).now key = .ok set

theorem AddsFit.of_concat (h : s.AddsFit (steps ++ [step])) : s.AddsFit steps := by
  rintro before key after rfl
  exact h before key (after ++ [step]) (by simp)

theorem not_lastAdded_nil : ¬ s.LastAdded [] key time := by
  rintro ⟨before, after, hsteps, -, -⟩
  simp at hsteps

theorem lastAdded_concat_self :
    s.LastAdded (steps ++ [.add key]) key time ↔ (s.run steps).now = time := by
  constructor
  · rintro ⟨before, after, hsteps, hlast, htime⟩
    rcases concat_eq_append_cons hsteps with ⟨rfl, -, -⟩ | ⟨rest, rfl, -⟩
    · exact htime
    · simp at hlast
  · intro htime
    exact ⟨steps, [], rfl, List.not_mem_nil, htime⟩

theorem lastAdded_concat_of_ne (h : step ≠ .add key) :
    s.LastAdded (steps ++ [step]) key time ↔ s.LastAdded steps key time := by
  constructor
  · rintro ⟨before, after, hsteps, hlast, htime⟩
    rcases concat_eq_append_cons hsteps with ⟨-, rfl, -⟩ | ⟨rest, rfl, rfl⟩
    · exact absurd rfl h
    · exact ⟨before, rest, rfl, fun hmem => hlast (List.mem_append_left _ hmem), htime⟩
  · rintro ⟨before, after, rfl, hlast, htime⟩
    refine ⟨before, after ++ [step], by simp, ?_, htime⟩
    simp [hlast, h.symm]

theorem LastAdded.mem (h : s.LastAdded steps key time) : .add key ∈ steps := by
  obtain ⟨before, after, rfl, -, -⟩ := h
  simp

end State

theorem Ledger.last?_next_of_ne {ttl : Duration} {step : Step} {key : Text} (h : step ≠ .add key)
    (r : Ledger) : (r.next ttl step).last? key = r.last? key := by
  cases step with
  | add other =>
    have hkey : key ≠ other := fun he => h (congrArg Step.add he.symm)
    rw [Ledger.next]
    split_ifs
    · exact Function.update_of_ne hkey _ _
    · rfl
  | _ => rfl

/-- All keys can be added as long as the last of them could be. -/
theorem addsFit_of_inRange {now : Instant} {ttl : Duration} {sweeper : Sweeper} {steps : List Step}
    (h : (((State.start now ttl sweeper).run steps).now.advance ttl).InRange) :
    (State.start now ttl sweeper).AddsFit steps := by
  rintro before key after rfl
  have hle := ((State.start now ttl sweeper).run before).now_le_run (.add key :: after)
  rw [← State.run_append] at hle
  refine ⟨_, add_eq_ok_iff.mpr ⟨?_, rfl⟩⟩
  rw [((tracks_start now ttl sweeper).run before).lifetime]
  exact (Nat.div_le_div_right (Nat.add_le_add_right hle _)).trans h

/-- The ledger of a run tells when each key was last added. -/
theorem last?_eq_some_iff {now : Instant} {ttl : Duration} {sweeper : Sweeper} {steps : List Step}
    (hfits : (State.start now ttl sweeper).AddsFit steps) {key : Text} {time : Instant} :
    ((Ledger.start now).run ttl steps).last? key = some time ↔
      (State.start now ttl sweeper).LastAdded steps key time := by
  induction steps using List.reverseRecOn with
  | nil => exact iff_of_false nofun State.not_lastAdded_nil
  | append_singleton steps step ih =>
    rw [Ledger.run_concat]
    by_cases hstep : step = .add key
    · subst hstep
      have htracks := (tracks_start now ttl sweeper).run steps
      obtain ⟨set, hset⟩ := hfits steps key [] rfl
      have hrange := (add_eq_ok_iff.mp hset).1
      rw [htracks.lifetime, htracks.now] at hrange
      rw [State.lastAdded_concat_self, htracks.now, Ledger.next, if_pos hrange]
      simp only [Function.update_self, Option.some.injEq]
    · rw [State.lastAdded_concat_of_ne hstep, Ledger.last?_next_of_ne hstep, ih hfits.of_concat]

/-! ### Counting -/

section

variable {s : ExpiringSet} {now : Instant}

/-- The size of a set is the number of keys stored. -/
theorem encard_stored (h : s.DistinctKeys) : {key | (s.deadline? key).isSome}.encard = s.size := by
  have hkeys : {key | (s.deadline? key).isSome} = ↑(s.entries.map Prod.fst).toFinset := by
    ext key
    simp [deadline?, List.lookup_isSome_iff]
  rw [hkeys, Set.encard_coe_eq_coe_finsetCard, List.toFinset_card_of_nodup h, List.length_map, size]

/-- A purge leaves the keys that have not expired. -/
theorem encard_live (h : s.DistinctKeys) :
    {key | s.lookup now key = .live}.encard = (s.purge now).set.size := by
  rw [← encard_stored (h.purge now)]
  simp only [deadline?_purge h, lookup_eq_live_iff]

/-- A purge removes the keys that have expired. -/
theorem encard_expired (h : s.DistinctKeys) :
    {key | s.lookup now key = .expired}.encard = (s.purge now).removed := by
  have hsplit : {key | s.lookup now key = .expired} =
      {key | (s.deadline? key).isSome} \ {key | s.lookup now key = .live} := by
    ext key
    simp only [Set.mem_ofPred_eq, Set.mem_sdiff, lookup]
    cases s.deadline? key with
    | none => simp
    | some deadline => by_cases hlive : isLive now deadline = true <;> simp [hlive]
  have hstored : {key | s.lookup now key = .live} ⊆ {key | (s.deadline? key).isSome} := by
    intro key hlive
    obtain ⟨deadline, hdeadline⟩ := Option.isSome_iff_exists.mp (lookup_eq_live_iff.mp hlive)
    exact Option.isSome_iff_exists.mpr ⟨deadline, (Option.filter_eq_some_iff.mp hdeadline).1⟩
  have hfinite : {key | s.lookup now key = .live}.Finite :=
    Set.finite_of_encard_eq_coe (encard_live h)
  rw [hsplit, Set.encard_sdiff hstored hfinite, encard_live h, encard_stored h, ← ENat.natCast_sub,
    ← size_purge_add_removed s now, Nat.add_sub_cancel_left]

end

/-- **An expiring set answers by last additions.**  A set without keys goes through any steps, and
the clock can show the deadlines of all keys added.  A key is then found exactly if it was last
added less than a lifetime ago.  All answers but their own stay when steps that only look up or
remove are left out.  A purge would remove the stored keys last added a lifetime ago or longer, and
leave as many as are found.  Those that are found are no more than the size of the set, and that is
no more than the keys ever added. -/
theorem refines_last_additions (now : Instant) (ttl : Duration) (sweeper : Sweeper)
    (steps : List Step) (hfits : (State.start now ttl sweeper).AddsFit steps) :
    let start := State.start now ttl sweeper
    let s := start.run steps
    let found : Set Text := {key | ∃ time, start.LastAdded steps key time ∧
      s.now.nanoseconds < time.nanoseconds + ttl.nanoseconds}
    let outdated : Set Text := {key | ∃ time, start.LastAdded steps key time ∧
      time.nanoseconds + ttl.nanoseconds ≤ s.now.nanoseconds}
    (∀ key, s.answer? (.look key) = some true ↔ key ∈ found) ∧
    (∀ marked : List (Step × Bool), marked.map (·.1) = steps →
      (∀ p ∈ marked, p.2 = false → p.1.IsSilent) →
      start.answers ((marked.filter (·.2)).map (·.1)) =
        ((marked.zip (start.answers steps)).filter (·.1.2)).map (·.2)) ∧
    (s.set.purge s.now).removed = {key | (s.set.deadline? key).isSome ∧ key ∈ outdated}.encard ∧
    (s.set.purge s.now).set.size = found.encard ∧
    found.encard ≤ s.set.size ∧
    s.set.size ≤ {key | .add key ∈ steps}.encard := by
  intro start s found outdated
  have hstart : Tracks ttl start (Ledger.start now) := tracks_start now ttl sweeper
  have htracks := hstart.run steps
  have hlast {key : Text} {time : Instant} :
      ((Ledger.start now).run ttl steps).last? key = some time ↔ start.LastAdded steps key time :=
    last?_eq_some_iff hfits
  have hfound (key : Text) : s.set.lookup s.now key = .live ↔ key ∈ found := by
    rw [htracks.lookup_eq_live_iff]
    simp only [hlast]
    rfl
  have hexpired (key : Text) : s.set.lookup s.now key = .expired ↔
      (s.set.deadline? key).isSome ∧ key ∈ outdated := by
    rw [htracks.lookup_eq_expired_iff]
    simp only [hlast]
    rfl
  have hpurged : (s.set.purge s.now).set.size = found.encard := by
    rw [← Set.ext hfound]
    exact (encard_live htracks.distinct).symm
  refine ⟨fun key => ?_, ?_, ?_, hpurged, ?_, ?_⟩
  · rw [← hfound, State.answer?, Option.some.injEq, decide_eq_true_iff]
  · rintro marked rfl hsilent
    exact hstart.answers_thinned hstart marked hsilent
  · rw [← Set.ext hexpired]
    exact (encard_expired htracks.distinct).symm
  · rw [← hpurged, Nat.cast_le]
    exact List.length_filter_le ..
  · rw [← encard_stored htracks.distinct]
    refine Set.encard_le_encard fun key hkey => ?_
    obtain ⟨deadline, hdeadline⟩ := Option.isSome_iff_exists.mp hkey
    obtain ⟨time, htime, -⟩ := Option.map_eq_some_iff.mp (htracks.stored key deadline hdeadline)
    exact (hlast.mp htime).mem

/-- Two keys, of which the first has expired and the second is there for another half second; the
answer about the second does not tell whether the first was looked up. -/
theorem refines_last_additions_of_two_keys :
    let start := State.start ⟨0⟩ (.ofSeconds 2) (.every (.ofSeconds 60))
    let added : List Step :=
      [.add ['a'], .wait (.ofSeconds 1), .add ['b'], .wait (.ofMilliseconds 1500)]
    let steps := added ++ [.look ['a'], .look ['b']]
    start.AddsFit steps ∧ (start.run steps).answer? (.look ['b']) = some true ∧
      start.answers (added ++ [.look ['b']]) = [none, none, none, none, some true] := by
  intro start added steps
  have hfits : start.AddsFit steps := addsFit_of_inRange (by decide)
  obtain ⟨hfound, hthinned, -⟩ :=
    refines_last_additions ⟨0⟩ (.ofSeconds 2) (.every (.ofSeconds 60)) steps hfits
  refine ⟨hfits, (hfound ['b']).mpr ⟨⟨1000000000⟩, ?_, by decide⟩, ?_⟩
  · exact ⟨added.take 2, .wait (.ofMilliseconds 1500) :: steps.drop 4, rfl, by decide, rfl⟩
  · let marked := added.map (·, true) ++ [(.look ['a'], false), (.look ['b'], true)]
    exact hthinned marked rfl (by simp [marked, added, Step.IsSilent])

end ProxyAuth.ExpiringSet
