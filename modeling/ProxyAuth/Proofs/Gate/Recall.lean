import Mathlib.Tactic
import ProxyAuth.Proofs.Address.RoundTrip
import ProxyAuth.Proofs.Gate.Run

/-!
# A gate that remembers times

The known clients with their deadlines, the removal of expired ones and the texts under which they
are stored are all made to answer one question: was the client accepted by its digest answer less
than a lifetime ago?  A `Recall` is a gate that keeps just what the question is about, for each
address the time of its last acceptance, and the gate does the same as it on every run.

* `Recall.answer`, `Recall.next`: what that gate does;
* `Simulates.answer`: gates that are together answer alike;
* `Simulates.run`: on every run the two gates stay together.
-/

namespace ProxyAuth.Gate

/-- The clocks, and when each address was last accepted by its digest answer. -/
structure Recall where
  now : Clocks
  accepted? : Address → Option Instant

namespace Recall

/-- Nobody was accepted yet. -/
def start (now : Clocks) : Recall := ⟨now, fun _ => none⟩

/-- Whether an address was accepted less than a lifetime ago. -/
def remembers (r : Recall) (lifetime : Duration) (a : Address) : Bool :=
  (r.accepted? a).any fun time => ExpiringSet.isLive r.now.monotonic (time.advance lifetime)

theorem remembers_iff {r : Recall} {lifetime : Duration} {a : Address} :
    r.remembers lifetime a = true ↔ ∃ time, r.accepted? a = some time ∧
      r.now.monotonic.nanoseconds < time.nanoseconds + lifetime.nanoseconds := by
  unfold remembers
  cases r.accepted? a with
  | none => simp
  | some time => simp [ExpiringSet.isLive_iff, Instant.advance]

/-- The decision on a request and the pages written. -/
def answer (policy : Policy) (lifetime : Duration) (r : Recall) (link : Link) (request : Request)
    (writeFault : Option Text) : Except ClockFault Decision × List Text :=
  if policy.required = false then (.ok (.authenticated .open), [])
  else if r.remembers lifetime link.client.canonical then (.ok (.authenticated .cached), [])
  else if IsAllowed policy link then (.ok (.authenticated .allowlist), [])
  else answerOf r.now lifetime writeFault
    ((verdict? policy r.now.wall link request).map Verdict.kind)

/-- Remember that an address is accepted now. -/
def accept (r : Recall) (a : Address) : Recall :=
  { r with accepted? := Function.update r.accepted? a (some r.now.monotonic) }

theorem accepted?_accept (r : Recall) (a b : Address) :
    (r.accept a).accepted? b = if b = a then some r.now.monotonic else r.accepted? b :=
  Function.update_apply ..

/-- The gate after a step: it remembers who is accepted by a digest answer, and forgets nobody. -/
def next (policy : Policy) (lifetime : Duration) (r : Recall) : Step → Recall
  | .request link request writeFault =>
      if (r.answer policy lifetime link request writeFault).1 = .ok (.authenticated .digest) then
        r.accept link.client.canonical
      else r
  | .wait d => { r with now := r.now.advance d }
  | .setWall time => { r with now := ⟨time, r.now.monotonic⟩ }
  | .purge => r
  | .sweep => r

/-- The gate after a list of steps. -/
def run (policy : Policy) (lifetime : Duration) (r : Recall) (steps : List Step) : Recall :=
  steps.foldl (next policy lifetime) r

end Recall

variable {policy : Policy} {ttl : Duration}

/-! ### The two gates stay together -/

/-- No other address is stored under the key of a client. -/
theorem render_eq_clientKey_iff {a : Address} {link : Link} :
    a.render = clientKey link ↔ a = link.client.canonical :=
  Address.render_injective.eq_iff

/-- The clocks agree, and the deadlines ahead are those of the times remembered. -/
structure Simulates (ttl : Duration) (s : State) (r : Recall) : Prop where
  now : s.now = r.now
  lifetime : s.known.lifetime = ttl
  distinct : s.known.DistinctKeys
  live : ∀ a : Address, s.known.liveDeadline? s.now.monotonic a.render =
    ((r.accepted? a).map (·.advance ttl)).filter (ExpiringSet.isLive s.now.monotonic)

theorem simulates_start (now : Clocks) (ttl : Duration) (sweeper : Sweeper) :
    Simulates ttl (State.start now ttl sweeper) (Recall.start now) where
  now := rfl
  lifetime := rfl
  distinct := ExpiringSet.distinctKeys_empty ttl
  live _ := rfl

namespace Simulates

variable {s : State} {r : Recall}

/-- A client is known where the other gate remembers its address. -/
theorem isKnown_iff (h : Simulates ttl s r) (link : Link) :
    IsKnown s.known s.now link ↔ r.remembers ttl link.client.canonical = true := by
  unfold IsKnown clientKey Recall.remembers
  rw [ExpiringSet.lookup_eq_live_iff, h.live, ← h.now]
  cases r.accepted? link.client.canonical with
  | none => simp
  | some time => simp [Option.filter_some]

/-- The two gates answer alike. -/
theorem answer (h : Simulates ttl s r) (link : Link) (request : Request)
    (writeFault : Option Text) :
    ((s.reply policy link request writeFault).outcome,
        (s.reply policy link request writeFault).written) =
      r.answer policy ttl link request writeFault := by
  have hknown := h.isKnown_iff link
  unfold Recall.answer State.reply
  split_ifs with hrequired hk ha
  · rw [authenticate_open request writeFault hrequired]
    rfl
  · rw [authenticate_cached request writeFault (by simpa using hrequired) (hknown.mpr hk)]
    rfl
  · rw [authenticate_allowlist request writeFault (by simpa using hrequired)
      (fun hk' => hk (hknown.mp hk')) ha]
    rfl
  · rw [← h.now, ← h.lifetime]
    exact answer_authenticate request writeFault (by simpa using hrequired)
      (fun hk' => hk (hknown.mp hk')) ha

theorem outcome (h : Simulates ttl s r) (link : Link) (request : Request)
    (writeFault : Option Text) :
    (s.reply policy link request writeFault).outcome =
      (r.answer policy ttl link request writeFault).1 :=
  congrArg Prod.fst (h.answer link request writeFault)

/-- Both gates remember the same of a request. -/
theorem live_request (h : Simulates ttl s r) (link : Link) (request : Request)
    (writeFault : Option Text) (a : Address) :
    (s.reply policy link request writeFault).known.liveDeadline? s.now.monotonic a.render =
      (((r.next policy ttl (.request link request writeFault)).accepted? a).map
        (·.advance ttl)).filter (ExpiringSet.isLive s.now.monotonic) := by
  rw [Recall.next, ← h.outcome link request writeFault]
  by_cases hrequired : policy.required = true
  · obtain ⟨hadded, hkept⟩ := known_authenticate hrequired s.known s.now link request writeFault
    split_ifs with hdigest
    · rw [State.reply, hadded hdigest, ExpiringSet.liveDeadline?_put,
        ExpiringSet.liveDeadline?_afterLookup, Recall.accepted?_accept, ← h.now, h.lifetime]
      by_cases ha : a = link.client.canonical
      · rw [if_pos (render_eq_clientKey_iff.mpr ha), if_pos ha]
        rfl
      · rw [if_neg (render_eq_clientKey_iff.not.mpr ha), if_neg ha]
        exact h.live a
    · rw [State.reply, hkept hdigest, ExpiringSet.liveDeadline?_afterLookup]
      exact h.live a
  · rw [Bool.not_eq_true] at hrequired
    have hopen : (s.reply policy link request writeFault).outcome =
        .ok (.authenticated .open) := by
      rw [State.reply, authenticate_open request writeFault hrequired]
      rfl
    rw [known_reply_of_open hrequired, if_neg (by simp [hopen])]
    exact h.live a

/-- Time takes the same away from both gates. -/
theorem live_later (h : Simulates ttl s r) {later : Instant}
    (hle : s.now.monotonic.nanoseconds ≤ later.nanoseconds) (a : Address) :
    s.known.liveDeadline? later a.render =
      ((r.accepted? a).map (·.advance ttl)).filter (ExpiringSet.isLive later) :=
  ExpiringSet.liveDeadline?_later hle (h.live a)

theorem now_next (h : Simulates ttl s r) (step : Step) :
    (s.next policy step).now = (r.next policy ttl step).now := by
  cases step with
  | request link request writeFault =>
    rw [Recall.next]
    split_ifs <;> exact h.now
  | wait d => rw [State.next, Recall.next, h.now]
  | setWall time => rw [State.next, Recall.next, h.now]
  | purge => exact h.now
  | sweep => exact h.now

/-- One step keeps the gates together. -/
theorem next (h : Simulates ttl s r) (step : Step) :
    Simulates ttl (s.next policy step) (r.next policy ttl step) where
  now := h.now_next step
  lifetime := (lifetime_next s step).trans h.lifetime
  distinct := distinctKeys_next h.distinct step
  live a := by
    cases step with
    | request link request writeFault => exact h.live_request link request writeFault a
    | wait d => exact h.live_later (monotonic_le_next s (.wait d)) a
    | setWall time => exact h.live a
    | purge => exact (ExpiringSet.liveDeadline?_purge h.distinct _ _).trans (h.live a)
    | sweep => exact (ExpiringSet.liveDeadline?_sweep h.distinct _ _ _).trans (h.live a)

theorem run (h : Simulates ttl s r) (steps : List Step) :
    Simulates ttl (run policy s steps) (r.run policy ttl steps) := by
  induction steps generalizing s r with
  | nil => exact h
  | cons step steps ih => exact ih (h.next step)

end Simulates

end ProxyAuth.Gate
