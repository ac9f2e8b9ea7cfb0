import Mathlib.Tactic
import ProxyAuth.Gate
import ProxyAuth.Proofs.ExpiringSet
import ProxyAuth.Proofs.Verification

/-!
# What the gate answers

The rules of the gate, one by one, what a client sees of them and what the gate remembers.

* `authenticate_open`, `authenticate_cached`, `authenticate_allowlist`, `authenticate_header`: the
  rule that applies, and `authenticate_cases` for all of them;
* `answer_authenticate`, `answer_of_not_consults`: of a verdict only the kind is seen, and where the
  gate looks at no header nothing;
* `known_authenticate`: a client is remembered where its digest answer lets it through, and nowhere
  else;
* `Consults`, `authenticate_of_header?_eq_none`, `authenticate_of_accepted`: clients that have to
  show a header.
-/

namespace ProxyAuth.Gate

open Text

/-- The key under which a client is remembered. -/
def clientKey (link : Link) : Text := link.client.canonical.render

/-- What the verification looks at besides the header. -/
def occasion (link : Link) (request : Request) : Occasion :=
  ⟨request.method, request.target, link.localPort⟩

/-- The verdict on the header of a request, if it has one. -/
def verdict? (policy : Policy) (now : WallTime) (link : Link) (request : Request) :
    Option Verdict :=
  (header? request).map fun header =>
    Verdict.ofText policy.accounts policy.nonceMaxAge now header (occasion link request)

/-- There is a header, and it is accepted. -/
def Accepts (policy : Policy) (now : Clocks) (link : Link) (request : Request) : Prop :=
  (verdict? policy now.wall link request).map Verdict.kind = some .accepted

variable (policy : Policy) (known : ExpiringSet) (now : Clocks) (link : Link) (request : Request)
  (writeFault : Option Text)

instance : Decidable (Accepts policy now link request) := inferInstanceAs (Decidable (_ = _))

/-! ### The rule that applies -/

/-- Whether the client is known from before. -/
def IsKnown : Prop := known.lookup now.monotonic (clientKey link) = .live

/-- Whether the client's address is in the allowlist. -/
def IsAllowed : Prop := policy.allowlist.admits link.client.canonical = true

instance : Decidable (IsKnown known now link) := inferInstanceAs (Decidable (_ = _))

instance : Decidable (IsAllowed policy link) := inferInstanceAs (Decidable (_ = _))

/-- The gate looks at the header of a client. -/
structure Consults (policy : Policy) (known : ExpiringSet) (now : Clocks) (link : Link) :
    Prop where
  required : policy.required = true
  not_known : ¬ IsKnown known now link
  not_allowed : ¬ IsAllowed policy link

/-- The events of looking the client up. -/
def eventsOfLookup : List Event :=
  lookupEvents (clientKey link) (known.lookup now.monotonic (clientKey link))

variable {policy known now link}

theorem authenticate_open (h : policy.required = false) :
    authenticate policy known now link request writeFault = accept known .open [] := by
  simp [authenticate, h]

theorem authenticate_cached (h : policy.required = true) (hk : IsKnown known now link) :
    authenticate policy known now link request writeFault =
      accept (known.afterLookup now.monotonic (clientKey link)) .cached
        (eventsOfLookup known now link ++ [.clientCached (clientKey link)]) := by
  unfold IsKnown clientKey at hk
  simp only [authenticate, h, hk, clientKey, eventsOfLookup]
  rfl

theorem authenticate_allowlist (h : policy.required = true) (hk : ¬ IsKnown known now link)
    (ha : IsAllowed policy link) :
    authenticate policy known now link request writeFault =
      accept (known.afterLookup now.monotonic (clientKey link)) .allowlist
        (eventsOfLookup known now link ++ [.clientAllowed (clientKey link)]) := by
  unfold IsKnown clientKey at hk
  unfold IsAllowed at ha
  simp only [authenticate, h, if_neg hk, ha, clientKey, eventsOfLookup]
  rfl

theorem authenticate_header (h : policy.required = true) (hk : ¬ IsKnown known now link)
    (ha : ¬ IsAllowed policy link) :
    authenticate policy known now link request writeFault =
      checkHeader policy (known.afterLookup now.monotonic (clientKey link)) now link request
        writeFault (clientKey link) (eventsOfLookup known now link) := by
  unfold IsKnown clientKey at hk
  unfold IsAllowed at ha
  simp only [authenticate, h, if_neg hk, if_neg ha, clientKey, eventsOfLookup]
  rfl

/-- The rules of the gate, each with what keeps those before it from applying. -/
@[elab_as_elim]
theorem authenticate_cases {motive : Reply → Prop}
    (unguarded : policy.required = false → motive (accept known .open []))
    (cached : policy.required = true → IsKnown known now link →
      motive (accept (known.afterLookup now.monotonic (clientKey link)) .cached
        (eventsOfLookup known now link ++ [.clientCached (clientKey link)])))
    (allowed : policy.required = true → ¬ IsKnown known now link → IsAllowed policy link →
      motive (accept (known.afterLookup now.monotonic (clientKey link)) .allowlist
        (eventsOfLookup known now link ++ [.clientAllowed (clientKey link)])))
    (consulted : Consults policy known now link →
      motive (checkHeader policy (known.afterLookup now.monotonic (clientKey link)) now link request
        writeFault (clientKey link) (eventsOfLookup known now link))) :
    motive (authenticate policy known now link request writeFault) := by
  by_cases h : policy.required = true
  · by_cases hk : IsKnown known now link
    · rw [authenticate_cached request writeFault h hk]
      exact cached h hk
    · by_cases ha : IsAllowed policy link
      · rw [authenticate_allowlist request writeFault h hk ha]
        exact allowed h hk ha
      · rw [authenticate_header request writeFault h hk ha]
        exact consulted ⟨h, hk, ha⟩
  · rw [Bool.not_eq_true] at h
    rw [authenticate_open request writeFault h]
    exact unguarded h

/-! ### What is seen of a verdict -/

/-- What a client that is neither known nor allowed sees: the decision and the pages written. -/
def answerOf (now : Clocks) (lifetime : Duration) (writeFault : Option Text) :
    Option Verdict.Kind → Except ClockFault Decision × List Text
  | some .accepted => ((now.monotonic.after lifetime).map fun _ => .authenticated .digest, [])
  | some .violated =>
      match writeFault with
      | none => (.ok (.rejected .protocol), [Page.badRequest])
      | some _ => (.ok (.rejected .internal), [])
  | _ =>
      match writeFault with
      | none => (.ok .challengeIssued, [Page.challenge Digest.realm (Nonce.issue now.wall)])
      | some _ => (.ok (.rejected .internal), [])

/-- Unless the clock fails, such a client gets through where its header is accepted. -/
theorem answerOf_eq_authenticated_iff {now : Clocks} {lifetime : Duration}
    {writeFault : Option Text} {kind : Option Verdict.Kind}
    (h : ∀ fault, (answerOf now lifetime writeFault kind).1 ≠ .error fault) {path : Path} :
    (answerOf now lifetime writeFault kind).1 = .ok (.authenticated path) ↔
      path = .digest ∧ kind = some .accepted := by
  match kind with
  | some .accepted =>
    cases hdeadline : now.monotonic.after lifetime with
    | ok deadline => simp [answerOf, hdeadline, Except.map, eq_comm]
    | error fault => exact absurd (by simp [answerOf, hdeadline, Except.map]) (h fault)
  | some .violated => cases writeFault <;> simp [answerOf]
  | some .refused => cases writeFault <;> simp [answerOf]
  | none => cases writeFault <;> simp [answerOf]

/-- A header is accepted if it is there and accepted for some name. -/
theorem verdict?_accepted_iff {request : Request} {now : WallTime} :
    (verdict? policy now link request).map Verdict.kind = some .accepted ↔
      ∃ header user, header? request = some header ∧
        Verdict.ofText policy.accounts policy.nonceMaxAge now header (occasion link request) =
          .accepted user := by
  unfold verdict?
  cases header? request with
  | none => simp
  | some header => simp [Verdict.kind_eq_accepted_iff]

/-- Of a verdict only the kind is seen. -/
theorem answer_checkHeader (policy : Policy) (known : ExpiringSet) (now : Clocks) (link : Link)
    (request : Request) (writeFault : Option Text) (client : Text) (events : List Event) :
    let reply := checkHeader policy known now link request writeFault client events
    (reply.outcome, reply.written) = answerOf now known.lifetime writeFault
      ((verdict? policy now.wall link request).map Verdict.kind) := by
  unfold checkHeader verdict? occasion
  cases header? request with
  | none => cases writeFault <;> rfl
  | some header =>
    simp only [Option.map_some]
    cases Verdict.ofText policy.accounts policy.nonceMaxAge now.wall header
        ⟨request.method, request.target, link.localPort⟩ with
    | accepted user =>
      simp only [remember, ExpiringSet.add, Verdict.kind, answerOf]
      cases now.monotonic.after known.lifetime <;> rfl
    | refused reason => cases writeFault <;> rfl
    | violated violation => cases writeFault <;> rfl

/-- What a client sees that has to show a header. -/
theorem answer_authenticate (h : policy.required = true) (hk : ¬ IsKnown known now link)
    (ha : ¬ IsAllowed policy link) :
    let reply := authenticate policy known now link request writeFault
    (reply.outcome, reply.written) = answerOf now known.lifetime writeFault
      ((verdict? policy now.wall link request).map Verdict.kind) := by
  intro reply
  have hr : reply = _ := authenticate_header request writeFault h hk ha
  rw [hr, answer_checkHeader, ExpiringSet.lifetime_afterLookup]

theorem Consults.outcome_eq (h : Consults policy known now link) :
    (authenticate policy known now link request writeFault).outcome =
      (answerOf now known.lifetime writeFault
        ((verdict? policy now.wall link request).map Verdict.kind)).1 :=
  congrArg Prod.fst
    (answer_authenticate request writeFault h.required h.not_known h.not_allowed)

theorem Consults.written_eq (h : Consults policy known now link) :
    (authenticate policy known now link request writeFault).written =
      (answerOf now known.lifetime writeFault
        ((verdict? policy now.wall link request).map Verdict.kind)).2 :=
  congrArg Prod.snd
    (answer_authenticate request writeFault h.required h.not_known h.not_allowed)

/-- Whoever need not show a header gets through, and nothing is written. -/
theorem answer_of_not_consults (h : ¬ Consults policy known now link) :
    let reply := authenticate policy known now link request writeFault
    (∃ path, reply.outcome = .ok (.authenticated path)) ∧ reply.written = [] := by
  refine authenticate_cases request writeFault (fun _ => ?_) (fun _ _ => ?_) (fun _ _ _ => ?_)
    fun hconsults => absurd hconsults h
  all_goals exact ⟨⟨_, rfl⟩, rfl⟩

/-- A gate that need not look at the header does not look at the request. -/
theorem authenticate_of_not_consults (h : ¬ Consults policy known now link) (request' : Request) :
    authenticate policy known now link request writeFault =
      authenticate policy known now link request' writeFault := by
  by_cases hrequired : policy.required = true
  · by_cases hk : IsKnown known now link
    · rw [authenticate_cached _ _ hrequired hk, authenticate_cached _ _ hrequired hk]
    · by_cases ha : IsAllowed policy link
      · rw [authenticate_allowlist _ _ hrequired hk ha, authenticate_allowlist _ _ hrequired hk ha]
      · exact absurd ⟨hrequired, hk, ha⟩ h
  · rw [Bool.not_eq_true] at hrequired
    rw [authenticate_open _ _ hrequired, authenticate_open _ _ hrequired]

/-! ### What is remembered -/

theorem known_checkHeader (policy : Policy) (known : ExpiringSet) (now : Clocks) (link : Link)
    (request : Request) (writeFault : Option Text) (client : Text) (events : List Event) :
    let reply := checkHeader policy known now link request writeFault client events
    (reply.outcome = .ok (.authenticated .digest) →
        reply.known = known.put client (now.monotonic.advance known.lifetime)) ∧
      (reply.outcome ≠ .ok (.authenticated .digest) → reply.known = known) := by
  unfold checkHeader
  cases header? request with
  | none => cases writeFault <;> simp [issueChallenge, reject]
  | some header =>
    dsimp only
    cases Verdict.ofText policy.accounts policy.nonceMaxAge now.wall header
        ⟨request.method, request.target, link.localPort⟩ with
    | accepted user =>
      cases hdeadline : now.monotonic.after known.lifetime with
      | error fault => simp [remember, ExpiringSet.add, hdeadline, Except.map]
      | ok deadline =>
        obtain rfl := Instant.eq_advance_of_after hdeadline
        simp [remember, ExpiringSet.add, hdeadline, Except.map, accept]
    | refused reason => cases writeFault <;> simp [issueChallenge, reject]
    | violated violation => cases writeFault <;> simp [refuse, reject]

/-- What the gate remembers: apart from what the look-up removes, the known clients change only
where a digest answer lets the client through. -/
theorem known_authenticate (h : policy.required = true) (known : ExpiringSet) (now : Clocks)
    (link : Link) (request : Request) (writeFault : Option Text) :
    let reply := authenticate policy known now link request writeFault
    let remaining := known.afterLookup now.monotonic (clientKey link)
    (reply.outcome = .ok (.authenticated .digest) →
        reply.known = remaining.put (clientKey link) (now.monotonic.advance known.lifetime)) ∧
      (reply.outcome ≠ .ok (.authenticated .digest) → reply.known = remaining) := by
  intro reply remaining
  by_cases hk : IsKnown known now link
  · have hr : reply = _ := authenticate_cached request writeFault h hk
    rw [hr]
    simp [accept, remaining]
  · by_cases ha : IsAllowed policy link
    · have hr : reply = _ := authenticate_allowlist request writeFault h hk ha
      rw [hr]
      simp [accept, remaining]
    · have hr : reply = _ := authenticate_header request writeFault h hk ha
      rw [hr, ← ExpiringSet.lifetime_afterLookup known now.monotonic (clientKey link)]
      exact known_checkHeader ..

/-! ### Clients that have to show a header -/

/-- Whoever was looked up in vain is not stored any more. -/
theorem Consults.afterLookup {later : Clocks} (h : Consults policy known now link) :
    Consults policy (known.afterLookup now.monotonic (clientKey link)) later link where
  required := h.required
  not_known := by
    rw [IsKnown, ExpiringSet.lookup, ExpiringSet.deadline?_afterLookup_of_not_live h.not_known]
    simp
  not_allowed := h.not_allowed

/-- A client without a header is challenged. -/
theorem authenticate_of_header?_eq_none (h : Consults policy known now link)
    (hheader : header? request = none) :
    let reply := authenticate policy known now link request none
    reply.outcome = .ok .challengeIssued ∧
      reply.known = known.afterLookup now.monotonic (clientKey link) := by
  intro reply
  have houtcome : reply.outcome = .ok .challengeIssued := by
    rw [h.outcome_eq request none, verdict?, hheader]
    rfl
  refine ⟨houtcome, (known_authenticate h.required known now link request none).2 ?_⟩
  rw [houtcome]
  simp

/-- A client whose header is accepted gets through and is remembered. -/
theorem authenticate_of_accepted (h : Consults policy known now link) {text user : Text}
    (hheader : header? request = some text)
    (hverdict : Verdict.ofText policy.accounts policy.nonceMaxAge now.wall text
      (occasion link request) = .accepted user) {deadline : Instant}
    (hdeadline : now.monotonic.after known.lifetime = .ok deadline) :
    let reply := authenticate policy known now link request writeFault
    reply.outcome = .ok (.authenticated .digest) ∧
      reply.known = (known.afterLookup now.monotonic (clientKey link)).put (clientKey link)
        deadline := by
  intro reply
  have houtcome : reply.outcome = .ok (.authenticated .digest) := by
    rw [h.outcome_eq request writeFault, verdict?, hheader, Option.map_some, hverdict]
    simp only [Option.map_some, Verdict.kind, answerOf, hdeadline]
    rfl
  obtain rfl := Instant.eq_advance_of_after hdeadline
  exact ⟨houtcome,
    (known_authenticate h.required known now link request writeFault).1 houtcome⟩

end ProxyAuth.Gate
