import Mathlib.Tactic
import ProxyAuth.Proofs.Gate.Deadline

/-!
# All that a request does

A request acts on the connection, the measurements and the known clients.  What it does to the
first two can be read off its decision and the time, for every policy and whatever clients are
known; of the known clients it changes its own only, and adds one with a digest answer only.

* `Announces`, `announces_authenticate`: what a decision says of the pages and the measurements;
* `Amends`, `amends_authenticate`: what it says of the known clients;
* `effects_announced`: all effects of every request.
-/

namespace ProxyAuth.Gate

/-- What a decision announces about the pages that the gate wrote, the writes that failed and the
measurements, which are all those of one request. -/
def Announces (now : WallTime) (writeFault : Option Text) (reply : Reply) : Decision → Prop
  | .authenticated path =>
      reply.written = [] ∧ Event.writeFaults reply.events = [] ∧
        Event.metrics reply.events = [.authenticated path]
  | .challengeIssued =>
      reply.written = [Page.challenge Digest.realm (Nonce.issue now)] ∧
        Event.writeFaults reply.events = [] ∧ Event.metrics reply.events = [.challenge]
  | .rejected .protocol =>
      reply.written = [Page.badRequest] ∧ Event.writeFaults reply.events = [] ∧
        Event.metrics reply.events = [.rejected .protocol]
  | .rejected .internal =>
      reply.written = [] ∧
        (∃ fault, writeFault = some fault ∧ Event.writeFaults reply.events = [fault]) ∧
        Event.metrics reply.events = [.rejected .internal]

/-- A page tells the time only to the second, and only in a challenge. -/
theorem pageOf?_congr {now later : WallTime} {decision : Decision}
    (h : decision = .challengeIssued → later.unixSeconds = now.unixSeconds) :
    pageOf? later decision = pageOf? now decision := by
  match decision with
  | .challengeIssued => rw [pageOf?, pageOf?, Nonce.issue, Nonce.issue, h rfl]
  | .authenticated _ => rfl
  | .rejected .protocol => rfl
  | .rejected .internal => rfl

variable (policy : Policy) (known : ExpiringSet) (now : Clocks) (link : Link) (request : Request)
  (writeFault : Option Text)

theorem announces_authenticate {decision : Decision}
    (h : (authenticate policy known now link request writeFault).outcome = .ok decision) :
    Announces now.wall writeFault (authenticate policy known now link request writeFault)
      decision := by
  have hwritten := written_of_outcome policy known now link request writeFault h
  have hmetrics := metrics_of_outcome policy known now link request writeFault h
  have hfaults := writeFaults_of_outcome policy known now link request writeFault h
  have hfits := fits_authenticate policy known now link request writeFault h
  match decision with
  | .authenticated path => exact ⟨hwritten, hfaults, hmetrics⟩
  | .challengeIssued => exact ⟨hwritten, hfaults, hmetrics⟩
  | .rejected .protocol => exact ⟨hwritten, hfaults, hmetrics⟩
  | .rejected .internal =>
    obtain ⟨fault, rfl⟩ := Option.ne_none_iff_exists'.mp hfits
    exact ⟨hwritten, ⟨fault, rfl, hfaults⟩, hmetrics⟩

/-- Where the gate gave up there was a page to write. -/
theorem exists_page_of_internal
    (h : (authenticate policy known now link request writeFault).outcome =
      .ok (.rejected .internal)) :
    ∃ page, (page = Page.challenge Digest.realm (Nonce.issue now.wall) ∨ page = Page.badRequest) ∧
      (authenticate policy known now link request none).written = [page] := by
  have hconsults : Consults policy known now link := by
    by_contra hconsults
    obtain ⟨⟨path, houtcome⟩, -⟩ := answer_of_not_consults request writeFault hconsults
    cases houtcome.symm.trans h
  have houtcome := (hconsults.outcome_eq request writeFault).symm.trans h
  rw [hconsults.written_eq]
  match (verdict? policy now.wall link request).map Verdict.kind, houtcome with
  | some .accepted, houtcome =>
    cases hdeadline : now.monotonic.after known.lifetime <;>
      simp [answerOf, hdeadline, Except.map] at houtcome
  | some .violated, _ => exact ⟨_, .inr rfl, rfl⟩
  | some .refused, _ => exact ⟨_, .inl rfl, rfl⟩
  | none, _ => exact ⟨_, .inl rfl, rfl⟩

/-! ### The known clients -/

/-- What a decision about a client announces about the known clients, which are `before` it and
`after` it: it may add the client or find it expired, and nobody else is concerned. -/
structure Amends (required : Bool) (now : Instant) (client : Text) (decision : Decision)
    (before after : ExpiringSet) : Prop where
  lifetime : after.lifetime = before.lifetime
  distinct : before.DistinctKeys → after.DistinctKeys
  others : ∀ key ≠ client, after.deadline? key = before.deadline? key
  added : decision = .authenticated .digest →
    after.deadline? client = some (now.advance before.lifetime)
  kept : required = true → decision ≠ .authenticated .digest → after.deadline? client =
    if before.lookup now client = .expired then none else before.deadline? client
  untouched : required = false → after = before

theorem amends_authenticate {decision : Decision}
    (h : (authenticate policy known now link request writeFault).outcome = .ok decision) :
    Amends policy.required now.monotonic (clientKey link) decision known
      (authenticate policy known now link request writeFault).known := by
  let s : State := ⟨now, known, .every known.lifetime⟩
  let step : Step := .request link request writeFault
  by_cases hrequired : policy.required = true
  · have hself := deadline?_reply_self hrequired s link request writeFault
    rw [State.reply, h] at hself
    refine ⟨lifetime_next s step, fun hs : s.known.DistinctKeys => distinctKeys_next hs step,
      fun key hkey => deadline?_reply_of_ne hkey s request writeFault, fun hdigest => ?_,
      fun _ hdigest => ?_, fun hopen => ?_⟩
    · rwa [if_pos (congrArg Except.ok hdigest)] at hself
    · rwa [if_neg fun hok => hdigest (Except.ok.inj hok)] at hself
    · cases hrequired.symm.trans hopen
  · rw [Bool.not_eq_true] at hrequired
    rw [authenticate_open request writeFault hrequired] at h ⊢
    obtain rfl : Decision.authenticated .open = decision := Except.ok.inj h
    refine ⟨rfl, id, fun _ _ => rfl, fun hdigest => ?_, fun hno => ?_, fun _ => rfl⟩
    · cases hdigest
    · cases hrequired.symm.trans hno

/-- **All that a request does.**  A request on any connection is decided about, unless the clock
cannot show the deadline of a client to be added.  The decision announces the page written or the
write that failed, and the one measurement; where the gate gave up, the page that could not be
written was the only one.  The decision announces as well what becomes of the known clients: with a
digest answer the client is added, under the text of its canonical address and with the deadline one
lifetime from now, and otherwise at most the client itself is removed, where it has expired.
Requests with the same decision, of any clients to any gates, come with the same pages and the same
measurement, as long as challenges are issued in the same second. -/
theorem effects_announced
    (hclock : Consults policy known now link → Accepts policy now link request →
      (now.monotonic.advance known.lifetime).InRange) :
    let reply := authenticate policy known now link request writeFault
    ∃ decision, reply.outcome = .ok decision ∧
      Announces now.wall writeFault reply decision ∧
      (decision = .rejected .internal → ∃ page,
        (page = Page.challenge Digest.realm (Nonce.issue now.wall) ∨ page = Page.badRequest) ∧
          (authenticate policy known now link request none).written = [page]) ∧
      Amends policy.required now.monotonic (clientKey link) decision known reply.known ∧
      ∀ (policy' : Policy) (known' : ExpiringSet) (now' : Clocks) (link' : Link)
        (request' : Request) (writeFault' : Option Text),
        let reply' := authenticate policy' known' now' link' request' writeFault'
        reply'.outcome = .ok decision →
        (decision = .challengeIssued → now'.wall.unixSeconds = now.wall.unixSeconds) →
        reply'.written = reply.written ∧
          Event.metrics reply'.events = Event.metrics reply.events := by
  intro reply
  obtain ⟨decision, hdecision⟩ : ∃ decision, reply.outcome = .ok decision := by
    cases houtcome : reply.outcome with
    | ok decision => exact ⟨decision, rfl⟩
    | error fault =>
      obtain ⟨hconsults, haccepts, hrange⟩ := outcome_eq_error_iff.mp houtcome
      exact absurd (hclock hconsults haccepts) hrange
  refine ⟨decision, hdecision,
    announces_authenticate policy known now link request writeFault hdecision,
    fun hinternal => ?_, amends_authenticate policy known now link request writeFault hdecision, ?_⟩
  · subst hinternal
    exact exists_page_of_internal policy known now link request writeFault hdecision
  · intro policy' known' now' link' request' writeFault' reply' hdecision' hsecond
    refine ⟨?_, ?_⟩
    · have hwritten : reply.written = _ := written_of_outcome policy known now link request
        writeFault hdecision
      have hwritten' : reply'.written = _ := written_of_outcome policy' known' now' link' request'
        writeFault' hdecision'
      rw [hwritten, hwritten', pageOf?_congr hsecond]
    · have hmetrics : Event.metrics reply.events = _ := metrics_of_outcome policy known now link
        request writeFault hdecision
      have hmetrics' : Event.metrics reply'.events = _ := metrics_of_outcome policy' known' now'
        link' request' writeFault' hdecision'
      rw [hmetrics, hmetrics']

/-- The challenge to a client that was known before cannot be written: the client is removed. -/
theorem effects_announced_for_expired_client :
    let policy : Policy := ⟨true, .empty, [], .ofSeconds 60, .ofSeconds 7200⟩
    let known := (ExpiringSet.empty (.ofSeconds 7200)).put "0.0.0.7".toList ⟨0⟩
    let now : Clocks := ⟨.ofParts 1700000000 0, ⟨1⟩⟩
    let request : Request := ⟨"GET".toList, "/".toList, none⟩
    let reply := authenticate policy known now ⟨⟨.v4 7, 5000⟩, 80⟩ request (some "gone".toList)
    (now.monotonic.advance known.lifetime).InRange ∧
      Announces now.wall (some "gone".toList) reply (.rejected .internal) ∧
      reply.known.deadline? "0.0.0.7".toList = none := by
  intro policy known now request reply
  have hrange : (now.monotonic.advance known.lifetime).InRange := by decide
  obtain ⟨decision, hdecision, hannounces, -, hamends, -⟩ := effects_announced policy known now
    ⟨⟨.v4 7, 5000⟩, 80⟩ request (some "gone".toList) fun _ _ => hrange
  have hinternal : reply.outcome = .ok (.rejected .internal) := by decide +kernel
  obtain rfl : decision = .rejected .internal := Except.ok.inj (hdecision.symm.trans hinternal)
  refine ⟨hrange, hannounces, ?_⟩
  exact hamends.kept rfl (by decide)

end ProxyAuth.Gate
