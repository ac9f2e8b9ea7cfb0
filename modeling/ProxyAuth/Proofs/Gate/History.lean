import Mathlib.Tactic
import ProxyAuth.Proofs.Gate.Recall

/-!
# Who gets through is a matter of the past

The times that a `Recall` keeps are those of visits, so whether a client is known can be read off
the visits of a run.  Together with the simulation this says, for every run that starts without
known clients, which requests get through and on which path.

* `Chronicles.run`: what is remembered of a run is, for each address, its last acceptance;
* `Chronicles.remembers_iff`: an address is remembered for one lifetime after each acceptance;
* `path_iff_history`: the path of every request.
-/

namespace ProxyAuth.Gate

/-- The digest answer of the visit let its client through. -/
def Visit.IsAcceptance (v : Visit) : Prop := v.reply.outcome = .ok (.authenticated .digest)

/-- What is remembered of visits: the last acceptance of each address. -/
structure Chronicles (vs : List Visit) (r : Recall) : Prop where
  past : ∀ v ∈ vs, v.now.monotonic.nanoseconds ≤ r.now.monotonic.nanoseconds
  happened : ∀ a time, r.accepted? a = some time →
    ∃ v ∈ vs, v.IsAcceptance ∧ v.link.client.canonical = a ∧ v.now.monotonic = time
  last : ∀ v ∈ vs, v.IsAcceptance → ∃ time, r.accepted? v.link.client.canonical = some time ∧
    v.now.monotonic.nanoseconds ≤ time.nanoseconds

theorem chronicles_start (now : Clocks) : Chronicles [] (Recall.start now) where
  past _ hv := by cases hv
  happened _ _ h := by cases h
  last _ hv := by cases hv

namespace Chronicles

variable {policy : Policy} {ttl : Duration} {vs : List Visit} {s : State} {r : Recall}

theorem later (h : Chronicles vs r) (now : Clocks)
    (hle : r.now.monotonic.nanoseconds ≤ now.monotonic.nanoseconds) :
    Chronicles vs { r with now := now } where
  past v hv := (h.past v hv).trans hle
  happened := h.happened
  last := h.last

/-- Where nobody visits there is nothing to remember. -/
theorem skip (h : Chronicles vs r) : Chronicles (vs ++ []) r := by
  rwa [List.append_nil]

/-- A visit without an acceptance need not be remembered. -/
theorem visit (h : Chronicles vs r) {v : Visit} (hnow : v.now = r.now) (hno : ¬ v.IsAcceptance) :
    Chronicles (vs ++ [v]) r where
  past w hw := by
    rcases List.mem_append.mp hw with hw | hw
    · exact h.past w hw
    · rw [List.mem_singleton.mp hw, hnow]
  happened a time ha := by
    obtain ⟨w, hw, hrest⟩ := h.happened a time ha
    exact ⟨w, List.mem_append_left _ hw, hrest⟩
  last w hw hacceptance := by
    rcases List.mem_append.mp hw with hw | hw
    · exact h.last w hw hacceptance
    · exact absurd (List.mem_singleton.mp hw ▸ hacceptance) hno

/-- An acceptance takes the place of earlier ones of the same address. -/
theorem accept (h : Chronicles vs r) {v : Visit} (hnow : v.now = r.now) (hyes : v.IsAcceptance) :
    Chronicles (vs ++ [v]) (r.accept v.link.client.canonical) where
  past w hw := by
    rcases List.mem_append.mp hw with hw | hw
    · exact h.past w hw
    · rw [List.mem_singleton.mp hw, hnow]
      exact le_rfl
  happened a time ha := by
    rw [Recall.accepted?_accept] at ha
    split_ifs at ha with hclient
    · exact ⟨v, List.mem_append_right _ (List.mem_singleton_self v), hyes, hclient.symm,
        hnow ▸ Option.some.inj ha⟩
    · obtain ⟨w, hw, hrest⟩ := h.happened a time ha
      exact ⟨w, List.mem_append_left _ hw, hrest⟩
  last w hw hacceptance := by
    rw [Recall.accepted?_accept]
    rcases List.mem_append.mp hw with hw | hw
    · split_ifs with hclient
      · exact ⟨r.now.monotonic, rfl, h.past w hw⟩
      · exact h.last w hw hacceptance
    · rw [List.mem_singleton.mp hw, if_pos rfl]
      exact ⟨r.now.monotonic, rfl, by rw [hnow]⟩

theorem next (h : Chronicles vs r) (hs : Simulates ttl s r) (step : Step) :
    Chronicles (vs ++ (s.visit? policy step).toList) (r.next policy ttl step) := by
  cases step with
  | request link request writeFault =>
    rw [Recall.next, ← hs.outcome link request writeFault]
    let visit : Visit := ⟨s.now, link, request, s.reply policy link request writeFault⟩
    split_ifs with hdigest
    · exact h.accept (v := visit) hs.now hdigest
    · exact h.visit (v := visit) hs.now hdigest
  | wait d => exact (h.later (r.now.advance d) (Nat.le_add_right _ _)).skip
  | setWall time => exact (h.later ⟨time, r.now.monotonic⟩ le_rfl).skip
  | purge => exact h.skip
  | sweep => exact h.skip

theorem run (h : Chronicles vs r) (hs : Simulates ttl s r) (steps : List Step) :
    Chronicles (vs ++ visits policy s steps) (r.run policy ttl steps) := by
  induction steps generalizing vs s r with
  | nil =>
    rw [visits_nil, List.append_nil]
    exact h
  | cons step steps ih =>
    rw [visits_cons, ← List.append_assoc]
    exact ih (h.next hs step) (hs.next step)

/-- An address is remembered for one lifetime after each acceptance. -/
theorem remembers_iff (h : Chronicles vs r) (a : Address) :
    r.remembers ttl a = true ↔ ∃ v ∈ vs, v.IsAcceptance ∧ v.link.client.canonical = a ∧
      r.now.monotonic.nanoseconds < v.now.monotonic.nanoseconds + ttl.nanoseconds := by
  rw [Recall.remembers_iff]
  constructor
  · rintro ⟨time, haccepted, hlive⟩
    obtain ⟨v, hv, hacceptance, hclient, rfl⟩ := h.happened a time haccepted
    exact ⟨v, hv, hacceptance, hclient, hlive⟩
  · rintro ⟨v, hv, hacceptance, rfl, hlive⟩
    obtain ⟨time, haccepted, hle⟩ := h.last v hv hacceptance
    exact ⟨time, haccepted, by omega⟩

end Chronicles

/-! ### The path of a request -/

/-- The path on which a request gets through, if it does. -/
def Recall.path? (policy : Policy) (ttl : Duration) (r : Recall) (link : Link)
    (request : Request) : Option Path :=
  if policy.required = false then some .open
  else if r.remembers ttl link.client.canonical then some .cached
  else if IsAllowed policy link then some .allowlist
  else if (verdict? policy r.now.wall link request).map Verdict.kind = some .accepted then
    some .digest
  else none

/-- The path rule by rule, where each rule leaves out those before it. -/
theorem Recall.path?_spec (policy : Policy) (ttl : Duration) (r : Recall) (link : Link)
    (request : Request) :
    (r.path? policy ttl link request = some .open ↔ policy.required = false) ∧
    (policy.required = true →
      (r.path? policy ttl link request = some .cached ↔
        r.remembers ttl link.client.canonical = true) ∧
      (¬ r.remembers ttl link.client.canonical = true →
        (r.path? policy ttl link request = some .allowlist ↔ IsAllowed policy link) ∧
        (¬ IsAllowed policy link →
          (r.path? policy ttl link request = some .digest ↔
            (verdict? policy r.now.wall link request).map Verdict.kind = some .accepted) ∧
          (¬ (verdict? policy r.now.wall link request).map Verdict.kind = some .accepted →
            ∀ path, ¬ r.path? policy ttl link request = some path)))) := by
  unfold Recall.path?
  constructor
  · split_ifs <;> simp_all
  intro hrequired
  rw [if_neg (by simp [hrequired])]
  constructor
  · split_ifs <;> simp_all
  intro hremembers
  rw [if_neg hremembers]
  constructor
  · split_ifs <;> simp_all
  intro hallowed
  rw [if_neg hallowed]
  constructor
  · split_ifs <;> simp_all
  intro haccepted path
  rw [if_neg haccepted]
  exact (Option.some_ne_none path).symm

/-- Unless the clock fails, a request gets through on its path. -/
theorem Recall.answer_eq_authenticated_iff {policy : Policy} {ttl : Duration} {r : Recall}
    {link : Link} {request : Request} {writeFault : Option Text}
    (h : ∀ fault, (r.answer policy ttl link request writeFault).1 ≠ .error fault) (path : Path) :
    (r.answer policy ttl link request writeFault).1 = .ok (.authenticated path) ↔
      r.path? policy ttl link request = some path := by
  unfold Recall.answer at h ⊢
  unfold Recall.path?
  split_ifs at h ⊢ with hrequired hremembers hallowed haccepted
  · simp
  · simp
  · simp
  · rw [answerOf_eq_authenticated_iff h, haccepted]
    simp [eq_comm]
  · rw [answerOf_eq_authenticated_iff h]
    simp [haccepted]

/-- **The past decides who gets through.**  On every run that starts without known clients, the gate
answers as one that remembers times only.  A request gets through: if no authentication is required;
or else if its client was accepted by a digest answer less than a lifetime ago; or else if its
client is in a subnet of the allowlist; or else if its header is accepted now; and in no other
case. -/
theorem path_iff_history (policy : Policy) (ttl : Duration) (sweeper : Sweeper) (now : Clocks)
    (steps : List Step) (link : Link) (request : Request) (writeFault : Option Text)
    (hclock : ∀ fault, ((run policy (.start now ttl sweeper) steps).reply policy link request
      writeFault).outcome ≠ .error fault) :
    let s := run policy (.start now ttl sweeper) steps
    let reply := s.reply policy link request writeFault
    let r := (Recall.start now).run policy ttl steps
    let Recent := ∃ v ∈ visits policy (.start now ttl sweeper) steps,
      v.reply.outcome = .ok (.authenticated .digest) ∧
        v.link.client.canonical = link.client.canonical ∧
        s.now.monotonic.nanoseconds < v.now.monotonic.nanoseconds + ttl.nanoseconds
    let Listed := ∃ subnet ∈ policy.allowlist, subnet.contains link.client.canonical = true
    let Answered := ∃ header user, header? request = some header ∧
      Verdict.ofText policy.accounts policy.nonceMaxAge s.now.wall header
        (occasion link request) = .accepted user
    (reply.outcome, reply.written) = r.answer policy ttl link request writeFault ∧
    (reply.outcome = .ok (.authenticated .open) ↔ policy.required = false) ∧
    (policy.required = true →
      (reply.outcome = .ok (.authenticated .cached) ↔ Recent) ∧
      (¬ Recent →
        (reply.outcome = .ok (.authenticated .allowlist) ↔ Listed) ∧
        (¬ Listed →
          (reply.outcome = .ok (.authenticated .digest) ↔ Answered) ∧
          (¬ Answered → ∀ path, reply.outcome ≠ .ok (.authenticated path))))) := by
  intro s reply r Recent Listed Answered
  have hsim : Simulates ttl s r := (simulates_start now ttl sweeper).run steps
  have hchron : Chronicles _ r :=
    (chronicles_start now).run (simulates_start now ttl sweeper) steps
  have hrecent : r.remembers ttl link.client.canonical = true ↔ Recent := by
    rw [hchron.remembers_iff, List.nil_append, ← hsim.now]
    rfl
  have hlisted : IsAllowed policy link ↔ Listed := List.any_eq_true
  have hanswered : (verdict? policy r.now.wall link request).map Verdict.kind = some .accepted ↔
      Answered := by
    rw [← hsim.now]
    exact verdict?_accepted_iff
  have houtcome : reply.outcome = (r.answer policy ttl link request writeFault).1 :=
    hsim.outcome link request writeFault
  have hpath (path : Path) : reply.outcome = .ok (.authenticated path) ↔
      r.path? policy ttl link request = some path := by
    rw [houtcome]
    exact Recall.answer_eq_authenticated_iff (houtcome ▸ hclock) path
  have hspec := Recall.path?_spec policy ttl r link request
  simp only [← hpath, hrecent, hlisted, hanswered] at hspec
  exact ⟨hsim.answer link request writeFault, hspec⟩

/-- A client that was accepted under its wrapped address gets through under the short one, a second
later, without a header and with the wall clock set back to 1970. -/
theorem cached_for_wrapped_address :
    let policy : Policy := ⟨true, ⟨[⟨"alice".toList, "secret".toList, 0⟩]⟩, [], .ofSeconds 60,
      .ofSeconds 7200⟩
    let accepted : Request := ⟨"GET".toList, "/".toList, some
      ("Digest username=alice, nonce=6553f100, qop=auth, " ++
        "response=04c563db084d2fabbb5a746ff53cb94d").toList⟩
    let steps : List Step := [.request ⟨⟨.v6 (Address.mapped 0xc0000207), 5000⟩, 80⟩ accepted none,
      .wait (.ofSeconds 1), .setWall (.ofParts 0 0), .purge]
    let s := run policy (.start ⟨.ofParts 1700000000 0, ⟨0⟩⟩ (.ofSeconds 2) (.every (.ofSeconds 1)))
      steps
    let reply := s.reply policy ⟨⟨.v4 0xc0000207, 5000⟩, 80⟩ ⟨"GET".toList, "/".toList, none⟩ none
    (∀ fault, reply.outcome ≠ .error fault) ∧ reply.outcome = .ok (.authenticated .cached) := by
  intro policy accepted steps s reply
  have hclock : ∀ fault, reply.outcome ≠ .error fault := by
    intro fault hfault
    have hok : reply.outcome.toOption.isSome = true := by decide +kernel
    rw [hfault] at hok
    cases hok
  let first := State.start ⟨.ofParts 1700000000 0, ⟨0⟩⟩ (.ofSeconds 2) (.every (.ofSeconds 1))
  refine ⟨hclock, ((path_iff_history policy _ _ _ steps _ _ none hclock).2.2 rfl).1.mpr ?_⟩
  refine ⟨⟨first.now, ⟨⟨.v6 (Address.mapped 0xc0000207), 5000⟩, 80⟩, accepted,
    first.reply policy ⟨⟨.v6 (Address.mapped 0xc0000207), 5000⟩, 80⟩ accepted none⟩, ?_, ?_, ?_, ?_⟩
  · rw [visits_cons]
    exact List.mem_append_left _ (List.mem_singleton_self _)
  · decide +kernel
  · decide +kernel
  · decide +kernel

end ProxyAuth.Gate
