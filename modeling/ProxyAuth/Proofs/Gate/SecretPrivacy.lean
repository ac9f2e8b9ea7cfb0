import Mathlib.Tactic
import ProxyAuth.Proofs.Gate.Run

/-!
# What a run tells about the secrets

Two gates that differ in the secrets of their accounts only go through the same steps.  A secret
counts at a single place, where a response is compared with the one that the secret gives.  As long
as both gates accept the same headers nothing tells the two runs apart: no decision, no page, no
event, and nothing that is remembered.

* `ofText_eq_of_sameButSecrets`: the verdicts agree if their acceptance does;
* `authenticate_eq_of_sameButSecrets`: so do the replies;
* `observations_eq_of_agree`: and so do whole runs.
-/

namespace ProxyAuth

/-- What is known of an account to those who do not know its secret. -/
def Account.withoutSecret (a : Account) : Account := { a with secret := [] }

@[simp] theorem Account.allowsPort_withoutSecret (a : Account) (localPort : UInt16) :
    a.withoutSecret.allowsPort localPort = a.allowsPort localPort := rfl

/-- The same names, with the same ports. -/
def Accounts.SameButSecrets (accounts₁ accounts₂ : Accounts) : Prop :=
  ∀ name, (accounts₁.get? name).map Account.withoutSecret =
    (accounts₂.get? name).map Account.withoutSecret

/-- The same policy, up to the secrets of its accounts. -/
structure Policy.SameButSecrets (policy₁ policy₂ : Policy) : Prop where
  required : policy₁.required = policy₂.required
  accounts : policy₁.accounts.SameButSecrets policy₂.accounts
  allowlist : policy₁.allowlist = policy₂.allowlist
  nonceMaxAge : policy₁.nonceMaxAge = policy₂.nonceMaxAge
  lifetime : policy₁.lifetime = policy₂.lifetime

/-! ### Verdicts -/

namespace Verdict

variable {accounts₁ accounts₂ : Accounts} {maxAge : Duration} {now : WallTime} {text : Text}
  {header : Header} {occasion : Occasion}

/-- Apart from acceptance the last checks do not depend on the account. -/
theorem ofResponse_eq {account₁ account₂ : Account}
    (h : (ofResponse account₁ header occasion).kind = .accepted ↔
      (ofResponse account₂ header occasion).kind = .accepted) :
    ofResponse account₁ header occasion = ofResponse account₂ header occasion := by
  unfold ofResponse at h ⊢
  generalize Digest.response account₁.key (fieldsOf header occasion) = response₁ at h ⊢
  generalize Digest.response account₂.key (fieldsOf header occasion) = response₂ at h ⊢
  split_ifs at h ⊢
  · rfl
  · cases hresponse : header.get? "response".toList with
    | none => rfl
    | some response =>
      simp only [hresponse] at h ⊢
      -- Both accounts give the response of the header, or neither does.
      by_cases h₁ : response₁ = response <;> by_cases h₂ : response₂ = response <;>
        simp [h₁, h₂, kind] at h ⊢

theorem ofAccount_eq (hsame : accounts₁.SameButSecrets accounts₂)
    (h : (ofAccount accounts₁ header occasion).kind = .accepted ↔
      (ofAccount accounts₂ header occasion).kind = .accepted) :
    ofAccount accounts₁ header occasion = ofAccount accounts₂ header occasion := by
  have hname := hsame (header.getD "username".toList)
  unfold ofAccount at h ⊢
  dsimp only at h ⊢
  cases h₁ : accounts₁.get? (header.getD "username".toList) with
  | none =>
    rw [h₁, Option.map_none, eq_comm, Option.map_eq_none_iff] at hname
    rw [hname]
  | some account₁ =>
    rw [h₁, Option.map_some, eq_comm, Option.map_eq_some_iff] at hname
    obtain ⟨account₂, h₂, hpublic⟩ := hname
    have hport : account₂.allowsPort occasion.localPort =
        account₁.allowsPort occasion.localPort := by
      rw [← Account.allowsPort_withoutSecret, hpublic, Account.allowsPort_withoutSecret]
    simp only [h₁, h₂, hport] at h ⊢
    cases hallows : account₁.allowsPort occasion.localPort with
    | false => rfl
    | true =>
      rw [hallows] at h
      exact ofResponse_eq h

/-- Two tables that differ in their secrets only give the same verdict if both or none accepts. -/
theorem ofText_eq_of_sameButSecrets (hsame : accounts₁.SameButSecrets accounts₂)
    (h : (ofText accounts₁ maxAge now text occasion).kind = .accepted ↔
      (ofText accounts₂ maxAge now text occasion).kind = .accepted) :
    ofText accounts₁ maxAge now text occasion = ofText accounts₂ maxAge now text occasion := by
  by_cases hpresents : ∃ header, Presents maxAge now text header
  · obtain ⟨header, hpresents⟩ := hpresents
    rw [ofText_of_presents accounts₁ hpresents, ofText_of_presents accounts₂ hpresents] at h ⊢
    exact ofAccount_eq hsame h
  · exact (ofText_of_not_presents (fun header hh => hpresents ⟨header, hh⟩) _ _ _).1

end Verdict

/-! ### Replies -/

namespace Gate

variable {policy policy₁ policy₂ : Policy} {known : ExpiringSet} {now : Clocks} {link : Link}
  {request : Request} {writeFault : Option Text}

theorem isAllowed_iff_of_sameButSecrets (hsame : policy₁.SameButSecrets policy₂) :
    IsAllowed policy₁ link ↔ IsAllowed policy₂ link := by
  rw [IsAllowed, IsAllowed, hsame.allowlist]

theorem Consults.of_sameButSecrets (h : Consults policy₁ known now link)
    (hsame : policy₁.SameButSecrets policy₂) : Consults policy₂ known now link where
  required := hsame.required ▸ h.required
  not_known := h.not_known
  not_allowed := (isAllowed_iff_of_sameButSecrets hsame).not.mp h.not_allowed

theorem checkHeader_eq_of_sameButSecrets (hsame : policy₁.SameButSecrets policy₂)
    (hagree : Accepts policy₁ now link request ↔ Accepts policy₂ now link request)
    (client : Text) (events : List Event) :
    checkHeader policy₁ known now link request writeFault client events =
      checkHeader policy₂ known now link request writeFault client events := by
  unfold Accepts verdict? at hagree
  unfold checkHeader
  cases hheader : header? request with
  | none => rfl
  | some header =>
    rw [hsame.nonceMaxAge] at hagree ⊢
    simp only [hheader, Option.map_some, Option.some.injEq] at hagree
    have hverdict := Verdict.ofText_eq_of_sameButSecrets hsame.accounts hagree
    unfold occasion at hverdict
    simp only [hverdict]

/-- Two gates that differ in their secrets only do the same if both or none accepts, should they
look at the header at all. -/
theorem authenticate_eq_of_sameButSecrets (hsame : policy₁.SameButSecrets policy₂)
    (hagree : Consults policy₁ known now link →
      (Accepts policy₁ now link request ↔ Accepts policy₂ now link request)) :
    authenticate policy₁ known now link request writeFault =
      authenticate policy₂ known now link request writeFault := by
  by_cases hrequired : policy₁.required = true
  · have hrequired₂ : policy₂.required = true := hsame.required ▸ hrequired
    by_cases hk : IsKnown known now link
    · rw [authenticate_cached _ _ hrequired hk, authenticate_cached _ _ hrequired₂ hk]
    · by_cases ha : IsAllowed policy₁ link
      · have ha₂ := (isAllowed_iff_of_sameButSecrets hsame).mp ha
        rw [authenticate_allowlist _ _ hrequired hk ha,
          authenticate_allowlist _ _ hrequired₂ hk ha₂]
      · have ha₂ := (isAllowed_iff_of_sameButSecrets hsame).not.mp ha
        rw [authenticate_header _ _ hrequired hk ha, authenticate_header _ _ hrequired₂ hk ha₂]
        exact checkHeader_eq_of_sameButSecrets hsame (hagree ⟨hrequired, hk, ha⟩) _ _
  · rw [Bool.not_eq_true] at hrequired
    rw [authenticate_open _ _ hrequired, authenticate_open _ _ (hsame.required ▸ hrequired)]

/-! ### Runs -/

/-- All that can be seen of a step. -/
structure Observation where
  /-- The decision, if the step was a request. -/
  outcome? : Option (Except ClockFault Decision)
  written : List Text
  /-- The log, measurements included. -/
  events : List Event
  /-- The known clients afterwards. -/
  known : ExpiringSet

/-- What can be seen of a step in a state. -/
def State.observe (policy : Policy) (s : State) (step : Step) : Observation :=
  let known := (s.next policy step).known
  match step with
  | .request link request writeFault =>
      let reply := s.reply policy link request writeFault
      ⟨some reply.outcome, reply.written, reply.events, known⟩
  | .wait _ | .setWall _ => ⟨none, [], [], known⟩
  | .purge => ⟨none, [], purgeEvents (s.known.purge s.now.monotonic), known⟩
  | .sweep => ⟨none, [], purgeEvents (s.sweeper.sweep s.now.monotonic s.known), known⟩

/-- What can be seen of a list of steps. -/
def observations (policy : Policy) (s : State) : List Step → List Observation
  | [] => []
  | step :: steps => s.observe policy step :: observations policy (s.next policy step) steps

theorem next_eq_of_reply_eq {policy₁ policy₂ : Policy} {s : State} {step : Step}
    (h : ∀ link request writeFault, step = .request link request writeFault →
      s.reply policy₁ link request writeFault = s.reply policy₂ link request writeFault) :
    s.next policy₁ step = s.next policy₂ step ∧ s.observe policy₁ step = s.observe policy₂ step := by
  cases step with
  | request link request writeFault =>
    have hreply := h link request writeFault rfl
    simp only [State.next, State.observe, hreply, and_self]
  | wait d => exact ⟨rfl, rfl⟩
  | setWall time => exact ⟨rfl, rfl⟩
  | purge => exact ⟨rfl, rfl⟩
  | sweep => exact ⟨rfl, rfl⟩

/-- **Secrets influence nothing but acceptance.**  Two gates that differ in the secrets of their
accounts only go through the same steps from the same state.  If at every request whose header both
look at both or none accepts it, then all that can be seen of every step is the same, and so are the
states that the runs lead to. -/
theorem observations_eq_of_agree (policy₁ policy₂ : Policy)
    (hsame : policy₁.SameButSecrets policy₂) (s : State) (steps : List Step)
    (hagree : ∀ k link request writeFault,
      steps[k]? = some (.request link request writeFault) →
      let s₁ := run policy₁ s (steps.take k)
      let s₂ := run policy₂ s (steps.take k)
      Consults policy₁ s₁.known s₁.now link → Consults policy₂ s₂.known s₂.now link →
        (Accepts policy₁ s₁.now link request ↔ Accepts policy₂ s₂.now link request)) :
    observations policy₁ s steps = observations policy₂ s steps ∧
      run policy₁ s steps = run policy₂ s steps := by
  induction steps generalizing s with
  | nil => exact ⟨rfl, rfl⟩
  | cons step steps ih =>
    -- The first step is the same, so the rest starts from the same state.
    obtain ⟨hnext, hobserve⟩ : s.next policy₁ step = s.next policy₂ step ∧
        s.observe policy₁ step = s.observe policy₂ step := by
      refine next_eq_of_reply_eq fun link request writeFault hstep => ?_
      refine authenticate_eq_of_sameButSecrets hsame fun hconsults => ?_
      exact hagree 0 link request writeFault (by rw [hstep]; rfl) hconsults
        (hconsults.of_sameButSecrets hsame)
    have hrest := ih (s.next policy₁ step) fun k link request writeFault hk => by
      have h := hagree (k + 1) link request writeFault hk
      simp only [List.take_succ_cons, run_cons, ← hnext] at h
      exact h
    refine ⟨?_, ?_⟩
    · rw [observations, observations, hobserve, hrest.1, hnext]
    · rw [run_cons, run_cons, hrest.2, hnext]

/-- Only the secret of bob differs: alice is accepted by both gates, and bob, who gives a wrong
response, by neither. -/
theorem observations_eq_for_wrong_response :
    let policy (secret : Text) : Policy := ⟨true,
      ⟨[⟨"alice".toList, "secret".toList, 0⟩, ⟨"bob".toList, secret, 8080⟩]⟩, [], .ofSeconds 60,
      .ofSeconds 2⟩
    let s := State.start ⟨.ofParts 1700000000 0, ⟨0⟩⟩ (.ofSeconds 2) (.every (.ofSeconds 1))
    let alice : Request := ⟨"GET".toList, "/".toList, some
      ("Digest username=alice, nonce=6553f100, qop=auth, " ++
        "response=04c563db084d2fabbb5a746ff53cb94d").toList⟩
    let bob : Request := ⟨"GET".toList, "/".toList, some
      "Digest username=bob, nonce=6553f100, qop=auth, response=00".toList⟩
    let steps : List Step := [.request ⟨⟨.v4 7, 5000⟩, 8080⟩ alice none, .wait (.ofSeconds 3),
      .request ⟨⟨.v4 8, 5000⟩, 8080⟩ bob none, .purge]
    (policy "x".toList).SameButSecrets (policy "y".toList) ∧
      observations (policy "x".toList) s steps = observations (policy "y".toList) s steps := by
  intro policy s alice bob steps
  have hsame : (policy "x".toList).SameButSecrets (policy "y".toList) := by
    refine ⟨rfl, fun name => ?_, rfl, rfl, rfl⟩
    by_cases ha : "alice".toList = name
    · subst ha; rfl
    · by_cases hb : "bob".toList = name
      · subst hb; rfl
      · simp only [policy, Accounts.get?, List.find?_cons, ha, hb, decide_false, List.find?_nil]
  refine ⟨hsame, (observations_eq_of_agree _ _ hsame s steps ?_).1⟩
  -- Of the four steps the first and the third are requests.
  intro k link request writeFault hk
  rcases k with _ | _ | _ | _ | k
  · cases hk
    intro _ _ _ _
    decide +kernel
  · cases hk
  · cases hk
    intro _ _ _ _
    decide +kernel
  · cases hk
  · cases hk

end Gate

end ProxyAuth
