import Mathlib.Tactic
import ProxyAuth.Proofs.Gate.Answer

/-!
# What an answer tells about the accounts

Two gates that differ in their accounts only are asked the same by the same client, and neither lets
it through.  Then what the client sees depends on the accounts in a single way: a header with a
fresh nonce that names another quality of protection, or has no response, is answered with the page
400 where its name has an account that may be used, and with a challenge where it has none.

* `violated_iff_violated`: when two tables of accounts both find a header violated;
* `answers_alike_iff`: exactly when the two answers agree;
* `not_answers_alike`: so whether a name exists can be told.
-/

namespace ProxyAuth

open Verdict

/-! ### Kinds of verdicts at two tables -/

namespace Verdict

/-- At the accounts a header is violated if it is deficient and names a usable account. -/
theorem kind_eq_violated_iff (accounts : Accounts) (header : Header) (occasion : Occasion) :
    (ofAccount accounts header occasion).kind = .violated ↔
      isDeficient header = true ∧ (usable? accounts header occasion.localPort).isSome := by
  rw [kind_ofAccount]
  cases usable? accounts header occasion.localPort with
  | none => simp
  | some account =>
    by_cases hd : isDeficient header = true
    · simp [hd]
    · simp only [if_neg hd]
      split_ifs <;> simp [hd]

variable {maxAge : Duration} {now : WallTime} {text : Text} {header : Header}

/-- Two tables of accounts give a deficient header the same kind of verdict if both or none has a
usable account of its name. -/
theorem violated_iff_violated (accounts₁ accounts₂ : Accounts)
    (h : Presents maxAge now text header) (occasion : Occasion) :
    ((ofText accounts₁ maxAge now text occasion).kind = .violated ↔
        (ofText accounts₂ maxAge now text occasion).kind = .violated) ↔
      (isDeficient header = true →
        ((usable? accounts₁ header occasion.localPort).isSome ↔
          (usable? accounts₂ header occasion.localPort).isSome)) := by
  rw [ofText_of_presents accounts₁ h, ofText_of_presents accounts₂ h, kind_eq_violated_iff,
    kind_eq_violated_iff]
  exact and_congr_right_iff

end Verdict

/-! ### Equal answers -/

namespace Gate

variable {now : Clocks} {lifetime : Duration} {writeFault : Option Text}

/-- Two answers that let no client through agree if both or none accepts, and, where a page can be
written, both or none is a violation. -/
theorem answerOf_eq_iff (k₁ k₂ : Kind)
    (h₁ : ∀ path, (answerOf now lifetime writeFault (some k₁)).1 ≠ .ok (.authenticated path))
    (h₂ : ∀ path, (answerOf now lifetime writeFault (some k₂)).1 ≠ .ok (.authenticated path)) :
    answerOf now lifetime writeFault (some k₁) = answerOf now lifetime writeFault (some k₂) ↔
      (k₁ = .accepted ↔ k₂ = .accepted) ∧
        (writeFault = none → (k₁ = .violated ↔ k₂ = .violated)) := by
  cases hdeadline : now.monotonic.after lifetime with
  | ok deadline =>
    -- An accepted header lets the client through, so neither kind is `accepted`.
    have ne_accepted (k : Kind)
        (h : ∀ path, (answerOf now lifetime writeFault (some k)).1 ≠ .ok (.authenticated path)) :
        k ≠ .accepted := by
      rintro rfl
      exact h .digest (by simp [answerOf, hdeadline, Except.map])
    have hk₁ := ne_accepted k₁ h₁
    have hk₂ := ne_accepted k₂ h₂
    cases k₁ <;> cases k₂ <;> cases writeFault <;> simp_all [answerOf]
  | error fault =>
    cases k₁ <;> cases k₂ <;> cases writeFault <;> simp [answerOf, hdeadline, Except.map]

variable {policy : Policy} {known : ExpiringSet} {link : Link} {request : Request}

/-- A client that is not let through is neither known nor allowed. -/
theorem answer_of_not_authenticated (h : policy.required = true)
    (hno : ∀ path, (authenticate policy known now link request writeFault).outcome ≠
      .ok (.authenticated path)) :
    let reply := authenticate policy known now link request writeFault
    (reply.outcome, reply.written) = answerOf now known.lifetime writeFault
      ((verdict? policy now.wall link request).map Verdict.kind) := by
  have hk : ¬ IsKnown known now link := fun hk =>
    hno .cached (by rw [authenticate_cached request writeFault h hk]; rfl)
  have ha : ¬ IsAllowed policy link := fun ha =>
    hno .allowlist (by rw [authenticate_allowlist request writeFault h hk ha]; rfl)
  exact answer_authenticate request writeFault h hk ha

/-- **When the answers of two gates agree** that differ in their accounts only and let no client
through.  The second clause counts only where the clock cannot show a deadline. -/
theorem answers_alike_iff (policy : Policy) (hrequired : policy.required = true)
    (accounts₁ accounts₂ : Accounts)
    (h₁ : ∀ path, (authenticate { policy with accounts := accounts₁ } known now link request
      writeFault).outcome ≠ .ok (.authenticated path))
    (h₂ : ∀ path, (authenticate { policy with accounts := accounts₂ } known now link request
      writeFault).outcome ≠ .ok (.authenticated path)) :
    let reply₁ := authenticate { policy with accounts := accounts₁ } known now link request
      writeFault
    let reply₂ := authenticate { policy with accounts := accounts₂ } known now link request
      writeFault
    (reply₁.outcome = reply₂.outcome ∧ reply₁.written = reply₂.written) ↔
      ∀ text header, header? request = some text →
        Presents policy.nonceMaxAge now.wall text header →
        (writeFault = none → isDeficient header = true →
          ((usable? accounts₁ header link.localPort).isSome ↔
            (usable? accounts₂ header link.localPort).isSome)) ∧
        ((ofText accounts₁ policy.nonceMaxAge now.wall text (occasion link request)).kind =
            .accepted ↔
          (ofText accounts₂ policy.nonceMaxAge now.wall text (occasion link request)).kind =
            .accepted) := by
  intro reply₁ reply₂
  have hr₁ : (reply₁.outcome, reply₁.written) = answerOf now known.lifetime writeFault _ :=
    answer_of_not_authenticated hrequired h₁
  have hr₂ : (reply₂.outcome, reply₂.written) = answerOf now known.lifetime writeFault _ :=
    answer_of_not_authenticated hrequired h₂
  rw [← Prod.mk.injEq, hr₁, hr₂]
  unfold verdict?
  cases htext : header? request with
  | none => simp
  | some text =>
    simp only [Option.map_some]
    have ho₁ := congrArg Prod.fst hr₁
    have ho₂ := congrArg Prod.fst hr₂
    simp only [verdict?, htext, Option.map_some] at ho₁ ho₂
    rw [answerOf_eq_iff _ _ (ho₁ ▸ h₁) (ho₂ ▸ h₂)]
    constructor
    · rintro ⟨haccepted, hviolated⟩ _ header ⟨⟩ hpresents
      exact ⟨fun hw => (violated_iff_violated accounts₁ accounts₂ hpresents _).mp (hviolated hw),
        haccepted⟩
    · intro h
      -- A text that presents no header is settled before the accounts are looked at.
      by_cases hpresents : ∃ header, Presents policy.nonceMaxAge now.wall text header
      · obtain ⟨header, hpresents⟩ := hpresents
        obtain ⟨hdeficient, haccepted⟩ := h text header rfl hpresents
        exact ⟨haccepted, fun hw =>
          (violated_iff_violated accounts₁ accounts₂ hpresents _).mpr (hdeficient hw)⟩
      · have hsame := (ofText_of_not_presents (fun header hh => hpresents ⟨header, hh⟩)
          accounts₁ accounts₂ (occasion link request)).1
        rw [hsame]
        exact ⟨Iff.rfl, fun _ => Iff.rfl⟩

/-- An unknown name and a wrong response get the same answer. -/
theorem answers_alike_for_unknown_name :
    let policy : Policy := ⟨true, .empty, [], .ofSeconds 60, .ofSeconds 7200⟩
    let accounts₁ : Accounts := ⟨[⟨"bob".toList, "secret".toList, 0⟩]⟩
    let accounts₂ : Accounts := ⟨[⟨"alice".toList, "secret".toList, 0⟩]⟩
    let known := ExpiringSet.empty (.ofSeconds 7200)
    let now : Clocks := ⟨.ofParts 1700000000 0, ⟨0⟩⟩
    let request : Request := ⟨"GET".toList, "/".toList,
      some "Digest username=bob, nonce=6553f100, qop=auth, response=00".toList⟩
    let reply₁ := authenticate { policy with accounts := accounts₁ } known now ⟨⟨.v4 7, 5000⟩, 80⟩
      request none
    let reply₂ := authenticate { policy with accounts := accounts₂ } known now ⟨⟨.v4 7, 5000⟩, 80⟩
      request none
    policy.required = true ∧ (∀ path, reply₁.outcome ≠ .ok (.authenticated path)) ∧
      (∀ path, reply₂.outcome ≠ .ok (.authenticated path)) ∧
      reply₁.outcome = reply₂.outcome ∧ reply₁.written = reply₂.written := by
  intro policy accounts₁ accounts₂ known now request reply₁ reply₂
  have h₁ : reply₁.outcome = .ok .challengeIssued := by decide +kernel
  have h₂ : reply₂.outcome = .ok .challengeIssued := by decide +kernel
  have hno₁ : ∀ path, reply₁.outcome ≠ .ok (.authenticated path) := fun path => by simp [h₁]
  have hno₂ : ∀ path, reply₂.outcome ≠ .ok (.authenticated path) := fun path => by simp [h₂]
  refine ⟨rfl, hno₁, hno₂,
    (answers_alike_iff policy rfl accounts₁ accounts₂ hno₁ hno₂).mpr ?_⟩
  intro text header htext hpresents
  obtain rfl : "Digest username=bob, nonce=6553f100, qop=auth, response=00".toList = text :=
    Option.some.inj (Eq.trans (by decide +kernel) htext)
  have hcomplete :
      (Header.parse "Digest username=bob, nonce=6553f100, qop=auth, response=00".toList).map
        isDeficient = .ok false := by decide +kernel
  rw [hpresents.parse_eq] at hcomplete
  refine ⟨fun _ hdeficient => ?_, by decide +kernel⟩
  exact absurd (Except.ok.inj hcomplete) (by simp [hdeficient])

/-- Whether a name exists can be told: a header with another quality of protection gets the page 400
where its name has an account and a challenge where it has none. -/
theorem not_answers_alike :
    ¬ ∀ (policy : Policy) (accounts₁ accounts₂ : Accounts) (known : ExpiringSet) (now : Clocks)
      (link : Link) (request : Request) (writeFault : Option Text), policy.required = true →
      let reply₁ := authenticate { policy with accounts := accounts₁ } known now link request
        writeFault
      let reply₂ := authenticate { policy with accounts := accounts₂ } known now link request
        writeFault
      (∀ path, reply₁.outcome ≠ .ok (.authenticated path)) →
      (∀ path, reply₂.outcome ≠ .ok (.authenticated path)) →
      reply₁.outcome = reply₂.outcome ∧ reply₁.written = reply₂.written := by
  intro h
  let reply (accounts : Accounts) : Reply :=
    authenticate ⟨true, accounts, [], .ofSeconds 60, .ofSeconds 7200⟩
      (.empty (.ofSeconds 7200)) ⟨.ofParts 1700000000 0, ⟨0⟩⟩ ⟨⟨.v4 7, 5000⟩, 80⟩
      ⟨"GET".toList, "/".toList, some "Digest username=bob, nonce=6553f100, qop=auth-int".toList⟩
      none
  have h₁ : (reply ⟨[⟨"bob".toList, "secret".toList, 0⟩]⟩).outcome = .ok (.rejected .protocol) := by
    decide +kernel
  have h₂ : (reply ⟨[⟨"alice".toList, "secret".toList, 0⟩]⟩).outcome = .ok .challengeIssued := by
    decide +kernel
  have hsame := (h ⟨true, .empty, [], .ofSeconds 60, .ofSeconds 7200⟩ _ _ _ _ _ _ _ rfl
    (fun path => by rw [h₁]; simp) (fun path => by rw [h₂]; simp)).1
  rw [h₁, h₂] at hsame
  cases hsame

end Gate

end ProxyAuth
