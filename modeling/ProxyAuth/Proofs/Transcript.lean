import Mathlib.Tactic
import ProxyAuth.Proofs.Challenge.Offer
import ProxyAuth.Proofs.Fallible
import ProxyAuth.Proofs.Gate.Effects
import ProxyAuth.Proofs.Nonce.Freshness
import ProxyAuth.Proofs.Session.Handshake
import ProxyAuth.Transcript

/-!
# Fetching a challenge

A client that fetches a challenge reads the page written last on its connection.  That is the page
of its own request if this is challenged.  But if it is let through, no page is written for it, and
the client reads what the requests before it have left on the connection.

* `next_eq`, `run_eq`: the pages of a connection, request by request;
* `outcome_sendBare`: what becomes of a bare request;
* `challenge?_run_eq_some_iff`: which challenge is left on a connection;
* `fetches_own_challenge_iff`: when the challenge that is fetched is that of the own request.
-/

namespace ProxyAuth.Transcript

open Text
open Session (issued)

/-! ### Histories -/

/-- A request on its way: the gate, its known clients, and the clocks as it arrives. -/
structure Sending where
  policy : Policy
  now : Clocks
  known : ExpiringSet
  request : Request

variable {t : Transcript} {s : Sending} {history : List Sending} {time : WallTime} {c : Challenge}

/-- The reply to a request. -/
def reply (t : Transcript) (s : Sending) : Gate.Reply :=
  Gate.authenticate s.policy s.known s.now t.link s.request t.writeFault

/-- The page that is written for a request, if any. -/
def page? (t : Transcript) (s : Sending) : Option Text :=
  (t.reply s).outcome.toOption.bind (Gate.pageOf? s.now.wall)

/-- The connection after a request. -/
def next (t : Transcript) (s : Sending) : Transcript :=
  (send s.policy s.now t s.known s.request).transcript

/-- The connection after some requests, the first one first. -/
def run (t : Transcript) (history : List Sending) : Transcript := history.foldl next t

@[simp] theorem run_nil (t : Transcript) : t.run [] = t := rfl

@[simp] theorem run_cons (t : Transcript) (s : Sending) (history : List Sending) :
    t.run (s :: history) = (t.next s).run history := rfl

theorem written_reply (t : Transcript) (s : Sending) : (t.reply s).written = (t.page? s).toList :=
  Gate.written_authenticate s.policy s.known s.now t.link s.request t.writeFault

theorem page?_eq_none_iff : t.page? s = none ↔ (t.reply s).written = [] := by
  rw [written_reply, Option.toList_eq_nil_iff]

/-- A request adds its page to the connection and changes nothing else. -/
theorem next_eq (t : Transcript) (s : Sending) :
    t.next s = { t with pages := t.pages ++ (t.page? s).toList } := by
  rw [← written_reply]
  rfl

/-- The pages of the requests follow one another. -/
theorem run_eq (t : Transcript) (history : List Sending) :
    t.run history = { t with pages := t.pages ++ history.filterMap t.page? } := by
  induction history generalizing t with
  | nil => simp
  | cons s history ih =>
    -- Later replies see the link and whether writes fail, not the pages.
    have hpage : (t.next s).page? = t.page? := rfl
    rw [run_cons, ih, hpage, next_eq, List.append_assoc, List.filterMap_cons]
    cases t.page? s <;> rfl

@[simp] theorem link_run (t : Transcript) (history : List Sending) :
    (t.run history).link = t.link := by
  rw [run_eq]

@[simp] theorem broken_run (t : Transcript) (history : List Sending) :
    (t.run history).broken = t.broken := by
  rw [run_eq]

/-! ### What is read of a page -/

/-- A client reads the challenge that was issued. -/
theorem ofResponse?_page (htime : time.InRange) :
    Challenge.ofResponse? (Page.challenge Digest.realm (Nonce.issue time)) =
      some (issued time) := by
  rw [← Challenge.ofBytes?_encode]
  exact Session.ofBytes?_issued htime.unixSeconds_lt

theorem ofResponse?_badRequest : Challenge.ofResponse? Page.badRequest = none := by
  rw [Challenge.ofResponse?, Page.isFramed_badRequest.fields_eq]
  rfl

/-- A page offers the challenge that was issued, if it is one. -/
theorem page?_bind_ofResponse?_eq_some_iff (hrange : s.now.wall.InRange) :
    (t.page? s).bind Challenge.ofResponse? = some c ↔
      (t.reply s).outcome = .ok .challengeIssued ∧ c = issued s.now.wall := by
  have hissued := ofResponse?_page hrange
  rw [page?]
  match (t.reply s).outcome with
  | .error _ => simp [Except.toOption]
  | .ok (.authenticated _) => simp [Except.toOption, Gate.pageOf?]
  | .ok .challengeIssued => simp [Except.toOption, Gate.pageOf?, hissued, eq_comm]
  | .ok (.rejected .protocol) => simp [Except.toOption, Gate.pageOf?, ofResponse?_badRequest]
  | .ok (.rejected .internal) => simp [Except.toOption, Gate.pageOf?]

/-- The last page that was written for a history is the challenge that was issued at a time. -/
inductive LeavesChallenge (t : Transcript) : List Sending → WallTime → Prop
  | intro {before after : List Sending} {s : Sending}
      (h : (t.reply s).outcome = .ok .challengeIssued)
      (hafter : ∀ later ∈ after, (t.reply later).written = []) :
      LeavesChallenge t (before ++ s :: after) s.now.wall

/-- On a connection without pages a history leaves the last of its pages. -/
theorem challenge?_run_eq_some_iff (ht : t.pages = [])
    (hrange : ∀ s ∈ history, s.now.wall.InRange) :
    (t.run history).challenge? = some c ↔
      ∃ time, LeavesChallenge t history time ∧ c = issued time := by
  rw [challenge?, lastPage?, run_eq, ht, List.nil_append, Option.bind_eq_some_iff]
  simp only [getLast?_filterMap_eq_some_iff, page?_eq_none_iff]
  constructor
  · rintro ⟨page, ⟨before, s, after, rfl, hpage, hafter⟩, hread⟩
    have hoffers : (t.page? s).bind Challenge.ofResponse? = some c := by
      rw [hpage, Option.bind_some, hread]
    obtain ⟨hissued, rfl⟩ :=
      (page?_bind_ofResponse?_eq_some_iff (hrange s (by simp))).mp hoffers
    exact ⟨s.now.wall, .intro hissued hafter, rfl⟩
  · rintro ⟨_, ⟨hissued, hafter⟩, rfl⟩
    rename_i before after s
    obtain ⟨page, hpage, hread⟩ := Option.bind_eq_some_iff.mp
      ((page?_bind_ofResponse?_eq_some_iff (hrange s (by simp))).mpr ⟨hissued, rfl⟩)
    exact ⟨page, ⟨before, s, after, rfl, hpage, hafter⟩, hread⟩

theorem challenge?_run_eq_none_iff (ht : t.pages = [])
    (hrange : ∀ s ∈ history, s.now.wall.InRange) :
    (t.run history).challenge? = none ↔ ¬ ∃ time, LeavesChallenge t history time := by
  rw [Option.eq_none_iff_forall_ne_some]
  constructor
  · rintro h ⟨time, hleaves⟩
    exact h _ ((challenge?_run_eq_some_iff ht hrange).mpr ⟨time, hleaves, rfl⟩)
  · intro h c hc
    obtain ⟨time, hleaves, -⟩ := (challenge?_run_eq_some_iff ht hrange).mp hc
    exact h ⟨time, hleaves⟩

theorem writeFault_eq_none_iff : t.writeFault = none ↔ t.broken = false := by
  rw [writeFault, ite_eq_right_iff]
  simp only [reduceCtorEq, imp_false, Bool.not_eq_true]

/-- Nothing is left on a connection whose writes fail. -/
theorem LeavesChallenge.not_broken (h : LeavesChallenge t history time) : t.broken = false := by
  cases h with
  | @intro _ _ s hissued _ =>
    exact writeFault_eq_none_iff.mp
      (Gate.fits_authenticate s.policy s.known s.now t.link s.request t.writeFault hissued)

/-! ### Fetching -/

/-- A client got through. -/
def Exchange.IsLetThrough (e : Exchange) : Prop := ∃ path, e.outcome = .ok (.authenticated path)

/-- A challenge is fetched exactly if the request is challenged, and it is the one on the page that
was written for this request. -/
structure FetchesOwn (t : Transcript) (bare : Exchange) (fetched : Option Challenge) : Prop where
  isSome_iff : fetched.isSome ↔ bare.outcome = .ok .challengeIssued
  own : ∀ c, fetched = some c → ∃ page,
    bare.transcript.pages = t.pages ++ [page] ∧ Challenge.ofBytes? (Utf8.encode page) = some c

section

variable (policy : Policy) (now : Clocks) (t : Transcript) (known : ExpiringSet)
  (request : Request)

/-- A bare request is challenged where the gate looks at headers, unless writing fails. -/
theorem outcome_sendBare :
    let bare := sendBare policy now t known request
    (Gate.Consults policy known now t.link →
      bare.outcome = .ok (if t.broken then .rejected .internal else .challengeIssued)) ∧
    (¬ Gate.Consults policy known now t.link → bare.IsLetThrough) := by
  intro bare
  have hbare : ∀ decision, bare.outcome = .ok decision ↔
      (t.reply ⟨policy, now, known, { request with authorization := none }⟩).outcome =
        .ok decision := fun decision => mapError_eq_ok
  simp only [Exchange.IsLetThrough, hbare]
  refine ⟨fun hconsults => ?_, fun hconsults => ?_⟩
  · rw [reply, hconsults.outcome_eq, Gate.verdict?, Gate.header?, writeFault]
    cases t.broken <;> rfl
  · exact (Gate.answer_of_not_consults _ _ hconsults).1

/-- The three outcomes of a bare request. -/
theorem sendBare_cases :
    let bare := sendBare policy now t known request
    bare.outcome = .ok .challengeIssued ∨
      bare.outcome = .ok (.rejected .internal) ∧ t.broken = true ∨ bare.IsLetThrough := by
  intro bare
  obtain ⟨hconsulted, hthrough⟩ := outcome_sendBare policy now t known request
  by_cases hconsults : Gate.Consults policy known now t.link
  · have houtcome : bare.outcome = _ := hconsulted hconsults
    cases hbroken : t.broken <;> simp [houtcome, hbroken]
  · exact .inr (.inr (hthrough hconsults))

theorem pages_sendBare :
    let bare := sendBare policy now t known request
    bare.transcript.pages =
      t.pages ++ (bare.outcome.toOption.bind (Gate.pageOf? now.wall)).toList := by
  intro bare
  let sending : Sending := ⟨policy, now, known, { request with authorization := none }⟩
  have hpages : bare.transcript.pages = t.pages ++ (t.page? sending).toList :=
    congrArg pages (next_eq t sending)
  have houtcome : bare.outcome = (t.reply sending).outcome.mapError Fault.clock := rfl
  rw [hpages, houtcome, page?]
  cases (t.reply sending).outcome <;> rfl

end

variable {policy : Policy} {now : Clocks} {known : ExpiringSet} {request : Request}

theorem pages_of_challenged
    (h : (sendBare policy now t known request).outcome = .ok .challengeIssued) :
    (sendBare policy now t known request).transcript.pages =
      t.pages ++ [Page.challenge Digest.realm (Nonce.issue now.wall)] := by
  rw [pages_sendBare policy now t known request, h]
  rfl

/-- A request that is challenged fetches its own challenge. -/
theorem fetch?_of_challenged (hnow : now.wall.InRange)
    (h : (sendBare policy now t known request).outcome = .ok .challengeIssued) :
    fetch? policy now t known request = some (issued now.wall) := by
  rw [fetch?, challenge?, lastPage?, pages_of_challenged h, List.getLast?_concat, Option.bind_some,
    ofResponse?_page hnow]

/-- Any other request fetches what was on the connection. -/
theorem fetch?_of_not_challenged
    (h : (sendBare policy now t known request).outcome ≠ .ok .challengeIssued) :
    fetch? policy now t known request = t.challenge? := by
  have hpages := pages_sendBare policy now t known request
  have hnone : (sendBare policy now t known request).outcome.toOption.bind
      (Gate.pageOf? now.wall) = none := by
    rcases sendBare_cases policy now t known request with
      hissued | ⟨houtcome, -⟩ | ⟨path, houtcome⟩
    · exact absurd hissued h
    · rw [houtcome]
      rfl
    · rw [houtcome]
      rfl
  rw [fetch?, challenge?, challenge?, lastPage?, lastPage?, hpages, hnone, Option.toList_none,
    List.append_nil]

/-- If writing works, whoever is not challenged got through. -/
theorem isLetThrough_iff (h : t.broken = false) :
    (sendBare policy now t known request).IsLetThrough ↔
      (sendBare policy now t known request).outcome ≠ .ok .challengeIssued := by
  constructor
  · rintro ⟨path, hthrough⟩
    simp [hthrough]
  · intro hissued
    rcases sendBare_cases policy now t known request with hcase | ⟨-, hbroken⟩ | hcase
    · exact absurd hcase hissued
    · exact absurd (h.symm.trans hbroken) (by decide)
    · exact hcase

theorem fetch?_eq_some_iff (hnow : now.wall.InRange) :
    fetch? policy now t known request = some c ↔
      (sendBare policy now t known request).outcome = .ok .challengeIssued ∧ c = issued now.wall ∨
        (sendBare policy now t known request).outcome ≠ .ok .challengeIssued ∧
          t.challenge? = some c := by
  by_cases h : (sendBare policy now t known request).outcome = .ok .challengeIssued
  · rw [fetch?_of_challenged hnow h, Option.some.injEq, eq_comm]
    simp [h]
  · rw [fetch?_of_not_challenged h]
    simp [h]

/-- A request that is not challenged must find nothing on its connection. -/
theorem fetchesOwn_iff (hnow : now.wall.InRange) :
    FetchesOwn t (sendBare policy now t known request) (fetch? policy now t known request) ↔
      (sendBare policy now t known request).outcome = .ok .challengeIssued ∨
        t.challenge? = none := by
  by_cases h : (sendBare policy now t known request).outcome = .ok .challengeIssued
  · rw [fetch?_of_challenged hnow h]
    refine iff_of_true ⟨iff_of_true rfl h, ?_⟩ (.inl h)
    rintro _ ⟨⟩
    exact ⟨_, pages_of_challenged h, by rw [Challenge.ofBytes?_encode, ofResponse?_page hnow]⟩
  · rw [fetch?_of_not_challenged h, or_iff_right h]
    constructor
    · intro hown
      exact Option.not_isSome_iff_eq_none.mp (mt hown.isSome_iff.mp h)
    · intro hnone
      rw [hnone]
      exact ⟨iff_of_false (by simp) h, nofun⟩

variable {link : Link} {broken : Bool}

/-- What is fetched on a connection with a history. -/
theorem fetch?_run_eq_some_iff (hhistory : ∀ s ∈ history, s.now.wall.InRange)
    (hnow : now.wall.InRange) :
    let t := (start link broken).run history
    let bare := sendBare policy now t known request
    fetch? policy now t known request = some c ↔
      bare.outcome = .ok .challengeIssued ∧ c = issued now.wall ∨
        bare.IsLetThrough ∧
          ∃ time, LeavesChallenge (start link broken) history time ∧ c = issued time := by
  intro t bare
  rw [fetch?_eq_some_iff hnow, challenge?_run_eq_some_iff rfl hhistory]
  refine or_congr_right (and_congr_left ?_)
  rintro ⟨time, hleaves, -⟩
  have hbroken : t.broken = broken := broken_run _ history
  exact (isLetThrough_iff (hbroken.trans hleaves.not_broken)).symm

/-- **Whose challenge is fetched.**  A connection has a history of requests, each of which met its
own gate, known clients and clocks.  A further request is sent bare, to any gate with any known
clients.  If the gate looks at headers the request is challenged, or rejected where writes fail;
else it is let through.  If it is challenged, its page comes last and the challenge on it is
fetched; if it is let through, the challenge that the history has left is fetched; and nothing else
is ever fetched.  So what is fetched is the challenge of the request itself, unless the request is
let through where a challenge is left. -/
theorem fetches_own_challenge_iff (hhistory : ∀ s ∈ history, s.now.wall.InRange)
    (hnow : now.wall.InRange) (policy : Policy) (known : ExpiringSet) (request : Request) :
    let t := (start link broken).run history
    let bare := sendBare policy now t known request
    let fetched := fetch? policy now t known request
    (FetchesOwn t bare fetched ↔
      ¬ (bare.IsLetThrough ∧ ∃ time, LeavesChallenge (start link broken) history time)) ∧
    (∀ c, fetched = some c ↔
      bare.outcome = .ok .challengeIssued ∧ c = issued now.wall ∨
        bare.IsLetThrough ∧
          ∃ time, LeavesChallenge (start link broken) history time ∧ c = issued time) ∧
    (bare.outcome = .ok .challengeIssued →
      bare.transcript.pages =
        t.pages ++ [Page.challenge Digest.realm (Nonce.issue now.wall)]) ∧
    (Gate.Consults policy known now link →
      bare.outcome = .ok (if broken then .rejected .internal else .challengeIssued)) ∧
    (¬ Gate.Consults policy known now link → bare.IsLetThrough) := by
  intro t bare fetched
  have hlink : t.link = link := link_run _ history
  have hbroken : t.broken = broken := broken_run _ history
  refine ⟨?_, fun c => fetch?_run_eq_some_iff hhistory hnow, pages_of_challenged,
    hlink ▸ hbroken ▸ outcome_sendBare policy now t known request⟩
  rw [fetchesOwn_iff hnow, challenge?_run_eq_none_iff rfl hhistory, not_and_or]
  -- Where something is left writes do not fail, so only two outcomes remain.
  refine or_congr_left' fun hleaves => ?_
  obtain ⟨time, hleaves⟩ := not_not.mp hleaves
  rw [isLetThrough_iff (hbroken.trans hleaves.not_broken), not_not]

/-- A client is known from another connection.  On this one the gate has sent it a challenge, which
is fetched although the client is let through; behind a further page, a refusal, nothing is. -/
theorem fetches_own_challenge_behind_refusal :
    let policy : Policy := ⟨true, ⟨[⟨"alice".toList, "secret".toList, 0⟩]⟩, [], .ofSeconds 60,
      .ofSeconds 7200⟩
    let now : Clocks := ⟨.ofParts 1700000000 0, ⟨0⟩⟩
    let later : Clocks := now.advance (.ofSeconds 9)
    let strangers : ExpiringSet := .empty policy.lifetime
    let known := strangers.put (Gate.clientKey ⟨⟨.v4 7, 6000⟩, 80⟩)
      (now.monotonic.advance policy.lifetime)
    let bare : Request := ⟨"GET".toList, "/".toList, none⟩
    let wrong := "Digest username=alice, nonce=6553f100, qop=auth-int, response=0".toList
    let first : Sending := ⟨policy, now, strangers, bare⟩
    let second : Sending := ⟨policy, now, strangers, { bare with authorization := some wrong }⟩
    let challenged := (start ⟨⟨.v4 7, 5000⟩, 80⟩ false).run [first]
    let refused := (start ⟨⟨.v4 7, 5000⟩, 80⟩ false).run [first, second]
    (∀ s ∈ [first, second], s.now.wall.InRange) ∧ later.wall.InRange ∧
      (sendBare policy later challenged known bare).IsLetThrough ∧
      fetch? policy later challenged known bare = some (issued now.wall) ∧
      (sendBare policy later refused known bare).IsLetThrough ∧
      FetchesOwn refused (sendBare policy later refused known bare)
        (fetch? policy later refused known bare) := by
  intro policy now later strangers known bare wrong first second challenged refused
  have hnow : now.wall.InRange := ⟨by decide, by decide⟩
  have hlater : later.wall.InRange := ⟨by decide, by decide⟩
  have hfirst : ∀ s ∈ [first], s.now.wall.InRange := List.forall_mem_singleton.mpr hnow
  have hboth : ∀ s ∈ [first, second], s.now.wall.InRange :=
    List.forall_mem_cons.mpr ⟨hnow, List.forall_mem_singleton.mpr hnow⟩
  have hcached : ∀ t : Transcript, t.link = ⟨⟨.v4 7, 5000⟩, 80⟩ →
      (sendBare policy later t known bare).IsLetThrough := by
    intro t hlink
    refine (outcome_sendBare policy later t known bare).2 fun hconsults => ?_
    rw [hlink] at hconsults
    exact hconsults.not_known (by decide +kernel)
  have hthrough : (sendBare policy later challenged known bare).IsLetThrough := hcached _ rfl
  refine ⟨hboth, hlater, hthrough, ?_, hcached _ rfl, ?_⟩
  · exact ((fetches_own_challenge_iff hfirst hlater policy known bare).2.1 _).mpr
      (.inr ⟨hthrough, (challenge?_run_eq_some_iff rfl hfirst).mp (by decide +kernel)⟩)
  · refine (fetches_own_challenge_iff hboth hlater policy known bare).1.mpr fun h => ?_
    exact (challenge?_run_eq_none_iff rfl hboth).mp (by decide +kernel) h.2

/-- A client fetches a challenge, answers it on another connection and fetches again: it is let
through, and the challenge is fetched that it has answered already. -/
theorem not_fetches_own_challenge :
    ¬ ∀ (link : Link) (broken : Bool) (history : List Sending) (policy : Policy) (now : Clocks)
      (known : ExpiringSet) (request : Request), (∀ s ∈ history, s.now.wall.InRange) →
      now.wall.InRange →
      let t := (start link broken).run history
      FetchesOwn t (sendBare policy now t known request) (fetch? policy now t known request) := by
  intro howns
  let link : Link := ⟨⟨.v4 7, 5000⟩, 80⟩
  let policy : Policy := ⟨true, ⟨[⟨"alice".toList, "secret".toList, 0⟩]⟩, [], .ofSeconds 60,
    .ofSeconds 7200⟩
  let now : Clocks := ⟨.ofParts 1700000000 0, ⟨0⟩⟩
  let strangers : ExpiringSet := .empty policy.lifetime
  let bare : Request := ⟨"GET".toList, "/".toList, none⟩
  let answer := ("Digest username=alice, nonce=6553f100, qop=auth, " ++
    "response=04c563db084d2fabbb5a746ff53cb94d").toList
  let known :=
    (send policy now (start link false) strangers { bare with authorization := some answer }).known
  let t := (start link false).run [⟨policy, now, strangers, bare⟩]
  have hnow : now.wall.InRange := ⟨by decide, by decide⟩
  have hown := howns link false [⟨policy, now, strangers, bare⟩] policy now known bare
    (List.forall_mem_singleton.mpr hnow) hnow
  have hfetched : (fetch? policy now t known bare).isSome := by decide +kernel
  have hcached : (sendBare policy now t known bare).outcome.toOption =
      some (.authenticated .cached) := by decide +kernel
  rw [hown.isSome_iff.mp hfetched] at hcached
  cases hcached

end ProxyAuth.Transcript
