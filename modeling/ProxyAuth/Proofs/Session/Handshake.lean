import Mathlib.Tactic
import ProxyAuth.Proofs.Challenge
import ProxyAuth.Proofs.Client.Agreement
import ProxyAuth.Proofs.Nonce
import ProxyAuth.Proofs.RequestHead
import ProxyAuth.Proofs.Session.Exchange

/-!
# A client that authenticates

A client sends a request, is challenged, reads the challenge from the bytes of the page, and sends
the request that carries its answer.  If it holds the secret of an account, it gets through and is
remembered, whatever its name and secret are and however the bytes arrive.

* `handle_of_no_header`, `handle_of_answer`: the two heads that it sends;
* `handshake_completes`: the whole connection.
-/

namespace ProxyAuth.Session

open Text Exchange RequestHead

variable {policy : Policy} {link : Link} {moment : Moment} {moments : Nat → Moment}
  {known : ExpiringSet} {head : Bytes} {client : Client} {challenge : Challenge}
  {method target clientNonce text : Text}

/-- The challenge that is issued at a time, as a client reads it. -/
def issued (time : WallTime) : Challenge :=
  ⟨Digest.realm, Nonce.issue time, some Digest.protection⟩

/-- The head that carries an answer, among other header lines. -/
def answering (method target version : Text) (before : List Text) (text : Text)
    (after : List Text) : Parts :=
  ⟨method, target, version, before ++ authorizationLine text :: after⟩

/-! ### The challenge -/

/-- A client reads the challenge that was issued, if the time fits a nonce. -/
theorem ofBytes?_issued {time : WallTime} (h : (time.unixSeconds : Int) < Nonce.wordHalf) :
    Challenge.ofBytes? (Utf8.encode (Page.challenge Digest.realm (Nonce.issue time))) =
      some (issued time) :=
  Challenge.ofBytes?_challenge Challenge.isPlain_realm (Challenge.isPlain_issue h)

theorem ofBytes?_page {maxAge : Duration} {now time : WallTime}
    (h : Nonce.freshness maxAge now (Nonce.issue time) = .fresh) :
    Challenge.ofBytes? (Utf8.encode (Page.challenge Digest.realm (Nonce.issue time))) =
      some (issued time) :=
  ofBytes?_issued (Nonce.unixSeconds_lt_of_fresh h)

/-! ### The two heads -/

/-- A request without a header is challenged. -/
theorem handle_of_no_header (hconsults : Gate.Consults policy known moment.clocks link)
    (hw : moment.writeFault = none) {request : Request} (hparse : parse? head = some request)
    (hnone : request.authorization = none) :
    handle policy link moment known head =
      ⟨some (.ok .challengeIssued),
        some (Page.challenge Digest.realm (Nonce.issue moment.clocks.wall)),
        known.afterLookup moment.clocks.monotonic (Gate.clientKey link)⟩ := by
  have hheader : Gate.header? request = none := by rw [Gate.header?, hnone, Option.filter_none]
  obtain ⟨houtcome, hknown⟩ := Gate.authenticate_of_header?_eq_none request hconsults hheader
  rw [handle_of_parse hparse hw, houtcome, hknown]
  rfl

/-- An answer keeps to its header line. -/
theorem legal_answering {version : Text} {before after : List Text}
    (hlegal : Parts.Legal ⟨method, target, version, before ++ after⟩)
    (h : (client.answer challenge method target clientNonce).1 = .ok text) :
    (answering method target version before text after).Legal where
  method := hlegal.method
  target := hlegal.target
  version := hlegal.version
  version_prefix := hlegal.version_prefix
  fields line hline := by
    obtain ⟨-, -, hforbidden⟩ := Client.sendable_of_answer h
    rcases List.mem_append.mp hline with hline | hline
    · exact hlegal.fields line (List.mem_append_left _ hline)
    rcases List.mem_cons.mp hline with rfl | hline
    · refine ⟨?_, not_infix_of_not_mem fun hmem => ?_⟩
      · exact List.mem_append_left _ (by decide)
      · rcases List.mem_append.mp hmem with hmem | hmem
        · exact absurd hmem (by decide)
        · exact absurd (hforbidden _ hmem) (by decide)
    · exact hlegal.fields line (List.mem_append_right _ hline)

/-- The request of a head that carries an answer. -/
theorem parse?_answering {version : Text} {before after : List Text}
    (hlegal : Parts.Legal ⟨method, target, version, before ++ after⟩)
    (hafter : ∀ line ∈ after, ∀ field, field? line = some field → isAuthorization field = false)
    (h : (client.answer challenge method target clientNonce).1 = .ok text) :
    parse? (Utf8.encode (answering method target version before text after).render) =
      some ⟨method, target, some text⟩ := by
  obtain ⟨hne, htrimmed, -⟩ := Client.sendable_of_answer h
  have hcounts : isAuthorization ("Proxy-Authorization".toList, text) = true := by
    have hname : sameIgnoringCase "Proxy-Authorization".toList authorizationName = true := by
      decide
    rw [isAuthorization, hname, Bool.true_and]
    simpa using hne
  have hfields : authorization? ((before ++ authorizationLine text :: after).filterMap field?) =
      some text := by
    rw [List.filterMap_append, List.filterMap_cons_some (field?_authorizationLine htrimmed)]
    refine authorization?_of_last hcounts fun field hfield => ?_
    obtain ⟨line, hline, hread⟩ := List.mem_filterMap.mp hfield
    exact hafter line hline field hread
  rw [Parts.parse?_render (legal_answering hlegal h)]
  simp only [answering, hfields]

/-- The answer of an entitled client lets it through. -/
theorem handle_of_answer (hconsults : Gate.Consults policy known moment.clocks link)
    (hw : moment.writeFault = none) (hrealm : challenge.realm = Digest.realm)
    (hfresh : Nonce.freshness policy.nonceMaxAge moment.clocks.wall challenge.nonce = .fresh)
    (hentitled : client.IsEntitled policy.accounts link.localPort)
    (h : (client.answer challenge method target clientNonce).1 = .ok text)
    (hparse : parse? head = some ⟨method, target, some text⟩) {deadline : Instant}
    (hdeadline : moment.clocks.monotonic.after known.lifetime = .ok deadline) :
    handle policy link moment known head =
      ⟨some (.ok (.authenticated .digest)), some Page.success,
        (known.afterLookup moment.clocks.monotonic (Gate.clientKey link)).put
          (Gate.clientKey link) deadline⟩ := by
  obtain ⟨hne, htrimmed, -⟩ := Client.sendable_of_answer h
  have hheader : Gate.header? ⟨method, target, some text⟩ = some text := by
    rw [Gate.header?, Option.filter_some, if_pos]
    simpa [trim_eq_self htrimmed] using hne
  have hverdict : Verdict.ofText policy.accounts policy.nonceMaxAge moment.clocks.wall text
      (Gate.occasion link ⟨method, target, some text⟩) = .accepted client.name :=
    Client.accepted_of_answer hrealm h hfresh hentitled rfl
  obtain ⟨houtcome, hknown⟩ := Gate.authenticate_of_accepted _ none hconsults hheader hverdict
    hdeadline
  rw [handle_of_parse hparse hw, houtcome, hknown]
  rfl

/-! ### The connection -/

/-- **A client that holds the secret of an account gets through.**  Its first head, whatever is on
it, carries no authorization header; the second one carries its answer to the challenge that it read
from the bytes of the page.  Between the two the nonce has not become stale.  Then the pages are the
challenge and the success, and the client is remembered until its deadline. -/
theorem handshake_completes (hconsults : Gate.Consults policy known (moments 0).clocks link)
    (hentitled : client.IsEntitled policy.accounts link.localPort)
    (hw : ∀ k < 2, (moments k).writeFault = none)
    (hfresh : Nonce.freshness policy.nonceMaxAge (moments 1).clocks.wall
      (Nonce.issue (moments 0).clocks.wall) = .fresh)
    {deadline : Instant}
    (hdeadline : (moments 1).clocks.monotonic.after known.lifetime = .ok deadline)
    {head₁ : Bytes} (hhead₁ : Feed.IsHead head₁) (hlength₁ : head₁.length ≤ Feed.maxHeadLength)
    {request₁ : Request} (hparse₁ : parse? head₁ = some request₁)
    (hnone : request₁.authorization = none) :
    let challenge := issued (moments 0).clocks.wall
    (∀ portions : List Bytes, portions.flatten = head₁ →
      let session := serve policy link moments known ⟨[], portions⟩
      session.written = [Page.challenge challenge.realm challenge.nonce] ∧
        Challenge.ofBytes? session.bytes = some challenge) ∧
    ∀ (method target clientNonce text version : Text) (before after : List Text),
      (client.answer challenge method target clientNonce).1 = .ok text →
      Parts.Legal ⟨method, target, version, before ++ after⟩ →
      (∀ line ∈ after, ∀ field, field? line = some field → isAuthorization field = false) →
      let head₂ := Utf8.encode (answering method target version before text after).render
      head₂.length ≤ Feed.maxHeadLength →
      ∀ portions : List Bytes, portions.flatten = head₁ ++ head₂ →
        let session := serve policy link moments known ⟨[], portions⟩
        session.written = [Page.challenge challenge.realm challenge.nonce, Page.success] ∧
          session.fault = none ∧
          Event.metrics session.events = [.challenge, .authenticated .digest] ∧
          session.known = (known.afterLookup (moments 0).clocks.monotonic
            (Gate.clientKey link)).put (Gate.clientKey link) deadline := by
  intro challenge
  have hfirst := handle_of_no_header hconsults (hw 0 (by decide)) hparse₁ hnone
  constructor
  · intro portions hportions session
    have hheads : Feed.headsOf portions.flatten = [head₁] := by
      have hall := Feed.headsOf_flatten (List.forall_mem_singleton.mpr hhead₁)
      rw [List.flatten_singleton] at hall
      rw [hportions, hall]
    have hextends := serve_extends policy link moments known hheads
      (List.forall_mem_singleton.mpr hlength₁)
    rw [handleAll_singleton, hfirst] at hextends
    have hwritten : session.written = [Page.challenge challenge.realm challenge.nonce] :=
      hextends.written
    refine ⟨hwritten, ?_⟩
    rw [bytes, hwritten, List.flatten_singleton]
    exact ofBytes?_page hfresh
  · intro method target clientNonce text version before after hanswer hlegal hafter head₂ hlength₂
      portions hportions session
    have hhead₂ : Feed.IsHead head₂ := Parts.isHead_render (legal_answering hlegal hanswer)
    have hheads : Feed.headsOf portions.flatten = [head₁, head₂] := by
      have hall := Feed.headsOf_flatten
        (List.forall_mem_cons.mpr ⟨hhead₁, List.forall_mem_singleton.mpr hhead₂⟩)
      rw [List.flatten_cons, List.flatten_singleton] at hall
      rw [hportions, hall]
    -- The look-up at the first head leaves the client not stored, so the one at the second head
    -- changes nothing.
    have hsecond := handle_of_answer hconsults.afterLookup (hw 1 (by decide)) rfl hfresh hentitled
      hanswer (parse?_answering hlegal hafter hanswer)
      (by rwa [ExpiringSet.lifetime_afterLookup])
    have hgoesOn : ¬ (handle policy link (moments 0) known head₁).IsLast := by
      rw [hfirst]
      simp [IsLast, Page.challenge_ne_badRequest]
    rw [ExpiringSet.afterLookup_eq_self
      (ExpiringSet.deadline?_afterLookup_of_not_live hconsults.not_known)] at hsecond
    have hextends := serve_extends policy link moments known hheads
      (List.forall_mem_cons.mpr ⟨hlength₁, List.forall_mem_singleton.mpr hlength₂⟩)
    rw [handleAll_cons_of_not_isLast hgoesOn, hfirst, handleAll_singleton, hsecond] at hextends
    exact ⟨hextends.written, hextends.fault, hextends.metrics, hextends.known⟩

/-- One second between the heads, the first of which arrives without its last byte. -/
theorem handshake_completes_for_cut_blank_line :
    let policy : Policy := ⟨true, ⟨[⟨"alice".toList, "secret".toList, 80⟩]⟩, [], .ofSeconds 60,
      .ofSeconds 7200⟩
    let moments : Nat → Moment := fun k => ⟨⟨.ofParts (1700000000 + k) 0, ⟨k⟩⟩, none⟩
    let text := ("Digest cnonce=\"c\", nc=00000001, nonce=\"6553f100\", qop=auth, " ++
      "realm=\"warden proxy\", response=\"0c37692392679592d2f7028461c83fab\", uri=\"/\", " ++
      "username=\"alice\"").toList
    let heads := Utf8.encode "GET /a HTTP/1.1\r\n\r\n".toList ++ Utf8.encode (answering "GET".toList
      "/".toList "HTTP/1.1".toList ["Host: x".toList] text ["Accept: y".toList]).render
    let session := serve policy ⟨⟨.v4 7, 5000⟩, 80⟩ moments (.empty (.ofSeconds 7200))
      ⟨[], [heads.take 18, heads.drop 18]⟩
    session.written = [Page.challenge Digest.realm "6553f100".toList, Page.success] ∧
      session.known.deadline? "0.0.0.7".toList = some ⟨7200000000001⟩ := by
  intro policy moments text heads session
  let link : Link := ⟨⟨.v4 7, 5000⟩, 80⟩
  let alice := Client.new "alice".toList "secret".toList
  let head₁ := Utf8.encode "GET /a HTTP/1.1\r\n\r\n".toList
  have hconsults : Gate.Consults policy (.empty (.ofSeconds 7200)) (moments 0).clocks link :=
    ⟨rfl, by decide +kernel, by decide⟩
  have hentitled : alice.IsEntitled policy.accounts link.localPort :=
    ⟨⟨"alice".toList, "secret".toList, 80⟩, rfl, rfl, by decide⟩
  have hnonce : Nonce.issue (moments 0).clocks.wall = "6553f100".toList := by decide +kernel
  have hfresh : Nonce.freshness policy.nonceMaxAge (moments 1).clocks.wall
      (Nonce.issue (moments 0).clocks.wall) = .fresh := by decide +kernel
  have hdeadline : (moments 1).clocks.monotonic.after (.ofSeconds 7200) =
      .ok ⟨7200000000001⟩ := by decide +kernel
  have hhead₁ : Feed.IsHead head₁ := by decide +kernel
  have hparse₁ : parse? head₁ = some ⟨"GET".toList, "/a".toList, none⟩ := by decide +kernel
  have hanswer : (alice.answer (issued (moments 0).clocks.wall) "GET".toList "/".toList
      "c".toList).1 = .ok text := by decide +kernel
  have hword {word : Text} (h : word ≠ [] ∧ ' ' ∉ word ∧ ¬ crlf <:+: word) : Parts.IsWord word :=
    ⟨h.1, h.2.1, h.2.2⟩
  have hlegal : Parts.Legal ⟨"GET".toList, "/".toList, "HTTP/1.1".toList,
      ["Host: x".toList] ++ ["Accept: y".toList]⟩ :=
    ⟨hword (by decide), hword (by decide), hword (by decide), by decide, by decide +kernel⟩
  have hafter : ∀ line ∈ ["Accept: y".toList], ∀ field, field? line = some field →
      isAuthorization field = false := by
    refine List.forall_mem_singleton.mpr fun field hfield => ?_
    have hread : field? "Accept: y".toList = some ("Accept".toList, "y".toList) := by
      decide +kernel
    obtain rfl := Option.some.inj (hread.symm.trans hfield)
    decide
  obtain ⟨hwritten, -, -, hknown⟩ := (handshake_completes hconsults hentitled (fun _ _ => rfl) hfresh
    hdeadline hhead₁ (by decide +kernel) hparse₁ rfl).2 _ _ _ text _ _ _ hanswer hlegal hafter
    (by decide +kernel) [heads.take 18, heads.drop 18] (by simp [heads, head₁])
  refine ⟨?_, ?_⟩
  · rw [← hnonce]
    exact hwritten
  · have hfound : session.known.deadline? (Gate.clientKey link) = some ⟨7200000000001⟩ := by
      rw [hknown]
      exact ExpiringSet.deadline?_put_self _ _ _
    exact hfound

end ProxyAuth.Session
