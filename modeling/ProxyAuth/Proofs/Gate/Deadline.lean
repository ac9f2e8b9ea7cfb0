import Mathlib.Tactic
import ProxyAuth.Proofs.Gate.Effects
import ProxyAuth.Proofs.Gate.Run
import ProxyAuth.Settings

/-!
# Deadlines that the clock cannot show

The gate decides about every request but one kind: a client whose header is accepted comes to be
known for a lifetime, and where the clock cannot show the end of it there is no decision.  The
lifetime is that of the settings, whose hours are bounded when they are turned into seconds, but
not by what the clock can still show.

* `outcome_eq_error_iff`: where the clock fails, for one request;
* `Policy.Source.lifetime_of_build`: the lifetime goes through the building of a policy unchanged;
* `decides_iff_deadline_in_range`: which requests of a run are decided about.
-/

namespace ProxyAuth

/-- The lifetime is not checked when a policy is built. -/
theorem Policy.Source.lifetime_of_build {source : Policy.Source} {files : Files} {policy : Policy}
    (h : source.build files = .ok policy) : policy.lifetime = source.lifetime := by
  unfold Policy.Source.build at h
  cases hfault : (source.loading files).fault with
  | some fault =>
    simp only [hfault] at h
    cases h
  | none =>
    simp only [hfault] at h
    obtain ⟨allowlist, -, rfl⟩ := map_eq_ok.mp h
    rfl

namespace Gate

variable {policy : Policy} {known : ExpiringSet} {now : Clocks} {link : Link} {request : Request}
  {writeFault : Option Text} {fault : ClockFault}

theorem answerOf_eq_error_iff {lifetime : Duration} {kind : Option Verdict.Kind} :
    (answerOf now lifetime writeFault kind).1 = .error fault ↔
      kind = some .accepted ∧ ¬ (now.monotonic.advance lifetime).InRange := by
  rw [← Instant.after_eq_error_iff fault]
  match kind with
  | some .accepted =>
    cases hdeadline : now.monotonic.after lifetime <;> simp [answerOf, hdeadline, Except.map]
  | some .violated => cases writeFault <;> simp [answerOf]
  | some .refused => cases writeFault <;> simp [answerOf]
  | none => cases writeFault <;> simp [answerOf]

/-- The clock fails where a header is accepted and nowhere else. -/
theorem outcome_eq_error_iff :
    (authenticate policy known now link request writeFault).outcome = .error fault ↔
      Consults policy known now link ∧ Accepts policy now link request ∧
        ¬ (now.monotonic.advance known.lifetime).InRange := by
  by_cases hconsults : Consults policy known now link
  · rw [hconsults.outcome_eq, answerOf_eq_error_iff, Accepts]
    simp only [hconsults, true_and]
  · -- None of the rules that apply without a header looks at the clock.
    obtain ⟨⟨path, houtcome⟩, -⟩ := answer_of_not_consults request writeFault hconsults
    rw [houtcome]
    exact iff_of_false nofun fun h => hconsults h.1

/-- **Which requests are decided about.**  A policy is built from any source, and its gate starts
without known clients and goes through any steps.  The gate decides about a request unless it has
to look at the header and accepts it while the clock cannot show the end of the lifetime; then
nothing is written, nothing is measured, and nobody comes to be known.  With the lifetime of
settings the clock can show it exactly if its seconds, those of the hours set but at most the
largest word of 64 bits, do not exceed what the clock has left. -/
theorem decides_iff_deadline_in_range (source : Policy.Source) (files : Files) {policy : Policy}
    (hbuild : source.build files = .ok policy) (now : Clocks) (sweeper : Sweeper)
    (steps : List Step) (link : Link) (request : Request) (writeFault : Option Text) :
    let s := run policy (.start now policy.lifetime sweeper) steps
    let reply := s.reply policy link request writeFault
    let accepted := Consults policy s.known s.now link ∧ Accepts policy s.now link request
    let inRange := (s.now.monotonic.advance source.lifetime).InRange
    ((∃ decision, reply.outcome = .ok decision) ↔ (accepted → inRange)) ∧
    (accepted → ¬ inRange → reply.outcome = .error .deadlineOutOfRange ∧ reply.written = [] ∧
      Event.metrics reply.events = [] ∧
      reply.known = s.known.afterLookup s.now.monotonic (clientKey link)) ∧
    ∀ given stored, source = (Settings.merge given stored).source →
      let hours := ((given.number? .lifetimeHours).or (stored.number? .lifetimeHours)).getD
        Settings.defaultLifetimeHours
      (inRange ↔ s.now.monotonic.nanoseconds / nanosecondsPerSecond +
        min (hours * 3600) CommandLine.maxNumber ≤ Instant.maxSeconds) := by
  intro s reply accepted inRange
  have hlifetime : s.known.lifetime = source.lifetime :=
    (lifetime_run ..).trans (Policy.Source.lifetime_of_build hbuild)
  have herror {fault : ClockFault} : reply.outcome = .error fault ↔ accepted ∧ ¬ inRange := by
    have h : reply.outcome = .error fault ↔ _ := outcome_eq_error_iff
    rwa [hlifetime, ← and_assoc] at h
  refine ⟨?_, fun haccepted hrange => ?_, fun given stored hsource => ?_⟩
  · cases houtcome : reply.outcome with
    | ok decision =>
      refine iff_of_true ⟨decision, rfl⟩ fun haccepted => ?_
      by_contra hrange
      have hfault : reply.outcome = .error .deadlineOutOfRange :=
        herror.mpr ⟨haccepted, hrange⟩
      cases houtcome.symm.trans hfault
    | error fault =>
      obtain ⟨haccepted, hrange⟩ := herror.mp houtcome
      exact iff_of_false (by rintro ⟨decision, ⟨⟩⟩) fun h => hrange (h haccepted)
  · have houtcome : reply.outcome = .error .deadlineOutOfRange :=
      herror.mpr ⟨haccepted, hrange⟩
    have hwritten : reply.written = (reply.outcome.toOption.bind (pageOf? s.now.wall)).toList :=
      written_authenticate ..
    have hmetrics :
        Event.metrics reply.events = (reply.outcome.toOption.map Decision.metric).toList :=
      metrics_authenticate ..
    have hknown : reply.outcome ≠ .ok (.authenticated .digest) →
        reply.known = s.known.afterLookup s.now.monotonic (clientKey link) :=
      (known_authenticate haccepted.1.required ..).2
    rw [houtcome] at hwritten hmetrics hknown
    exact ⟨houtcome, hwritten, hmetrics, hknown (by simp)⟩
  · intro hours
    subst hsource
    exact Instant.inRange_advance_ofSeconds

/-- With the most hours that the clock can show from its start a client is accepted up to half an
hour and seven seconds after it. -/
theorem decides_with_longest_lifetime :
    let given : CommandLine.Values := [(.entry, "alice:secret".toList),
      (.lifetimeHours, "2562047788015215".toList)]
    let source := (Settings.merge given []).source
    let alice : Request := ⟨"GET".toList, "/".toList, some
      ("Digest username=alice, nonce=6553f100, qop=auth, " ++
        "response=04c563db084d2fabbb5a746ff53cb94d").toList⟩
    let link : Link := ⟨⟨.v4 7, 5000⟩, 80⟩
    let steps : List Step := [.wait (.ofSeconds 1807), .setWall (.ofParts 1700000000 0)]
    ∃ policy, source.build Files.none = .ok policy ∧
      let s := run policy (.start ⟨.ofParts 0 0, ⟨0⟩⟩ policy.lifetime (.every (.ofSeconds 60))) steps
      Consults policy s.known s.now link ∧ Accepts policy s.now link alice ∧
        ∃ decision, (s.reply policy link alice none).outcome = .ok decision := by
  intro given source alice link steps
  let policy : Policy := ⟨true, ⟨[⟨"alice".toList, "secret".toList, 0⟩]⟩, [], .ofSeconds 60,
    .ofSeconds (2562047788015215 * 3600)⟩
  have hbuild : source.build Files.none = .ok policy := by decide +kernel
  obtain ⟨hdecides, -, hrange⟩ := decides_iff_deadline_in_range source Files.none hbuild
    ⟨.ofParts 0 0, ⟨0⟩⟩ (.every (.ofSeconds 60)) steps link alice none
  refine ⟨policy, hbuild, ⟨?_, ?_, ?_⟩, ?_, hdecides.mpr fun _ => (hrange given [] rfl).mpr ?_⟩
  all_goals decide +kernel

/-- With the largest number of hours nobody can be accepted. -/
theorem not_decides :
    ¬ ∀ (given : CommandLine.Values) (stored : SettingsFile.Values) (files : Files)
      (policy : Policy) (now : Clocks) (sweeper : Sweeper) (steps : List Step) (link : Link)
      (request : Request) (writeFault : Option Text),
      (Settings.merge given stored).source.build files = .ok policy →
      ∃ decision, ((run policy (.start now policy.lifetime sweeper) steps).reply policy link request
        writeFault).outcome = .ok decision := by
  intro hdecides
  let given : CommandLine.Values := [(.entry, "alice:secret".toList),
    (.lifetimeHours, "18446744073709551615".toList)]
  let alice : Request := ⟨"GET".toList, "/".toList, some
    ("Digest username=alice, nonce=6553f100, qop=auth, " ++
      "response=04c563db084d2fabbb5a746ff53cb94d").toList⟩
  let link : Link := ⟨⟨.v4 7, 5000⟩, 80⟩
  let policy : Policy := ⟨true, ⟨[⟨"alice".toList, "secret".toList, 0⟩]⟩, [], .ofSeconds 60,
    .ofSeconds CommandLine.maxNumber⟩
  let now : Clocks := ⟨.ofParts 1700000000 0, ⟨0⟩⟩
  let sweeper := Sweeper.every (.ofSeconds 60)
  have hbuild : (Settings.merge given []).source.build Files.none = .ok policy := by decide +kernel
  obtain ⟨decision, hdecision⟩ :=
    hdecides given [] Files.none policy now sweeper [] link alice none hbuild
  have hfault : ((run policy (.start now policy.lifetime sweeper) []).reply policy link alice
      none).outcome = .error .deadlineOutOfRange := by decide +kernel
  cases hdecision.symm.trans hfault

end Gate

end ProxyAuth
