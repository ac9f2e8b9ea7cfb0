import Mathlib.Tactic
import ProxyAuth.Proofs.Allowlist
import ProxyAuth.Proofs.Gate.Recall
import ProxyAuth.Proofs.Gate.SecretPrivacy

/-!
# Who a client is

A client is its canonical address.  Nothing that can be seen of a gate tells two addresses with one
canonical form apart, or two ports of the client; and what becomes of a client, on any run, is what
would become of it if no other client existed.

* `authenticate_congr`, `observations_congr`: addresses with one canonical form are one client;
* `seen_authenticate_congr`: of the known clients a request looks at its own;
* `AgreeOn.run_filter`, `AgreeOn.seen_visits_filter`: taking away the requests of others changes
  neither the entry of a client nor the answers to it;
* `client_is_canonical_address`: all of it, together with the entries of an allowlist.
-/

namespace ProxyAuth

namespace Gate

variable {policy : Policy}

/-! ### One canonical address, one client -/

/-- A request may come from another endpoint with the same canonical address; everything else is the
same. -/
inductive Readdressed : Step → Step → Prop
  | same (step : Step) : Readdressed step step
  | request {remote remote' : Endpoint} (localPort : UInt16) (request : Request)
      (writeFault : Option Text) (h : remote.address.canonical = remote'.address.canonical) :
      Readdressed (.request ⟨remote, localPort⟩ request writeFault)
        (.request ⟨remote', localPort⟩ request writeFault)

/-- The gate looks at the canonical address and at the local port only. -/
theorem authenticate_congr {link link' : Link}
    (hclient : link.client.canonical = link'.client.canonical)
    (hport : link.localPort = link'.localPort) (known : ExpiringSet) (now : Clocks)
    (request : Request) (writeFault : Option Text) :
    authenticate policy known now link request writeFault =
      authenticate policy known now link' request writeFault := by
  unfold authenticate checkHeader
  rw [hclient, hport]

theorem Readdressed.next_eq {step step' : Step} (h : Readdressed step step') (policy : Policy)
    (s : State) :
    s.next policy step = s.next policy step' ∧ s.observe policy step = s.observe policy step' := by
  cases h with
  | same => exact ⟨rfl, rfl⟩
  | @request remote remote' localPort request writeFault h =>
    have hclient : (Link.client ⟨remote, localPort⟩).canonical =
        (Link.client ⟨remote', localPort⟩).canonical := h
    have hreply : s.reply policy ⟨remote, localPort⟩ request writeFault =
        s.reply policy ⟨remote', localPort⟩ request writeFault :=
      authenticate_congr hclient rfl ..
    simp only [State.next, State.observe, hreply, and_self]

theorem observations_congr {steps steps' : List Step} (h : List.Forall₂ Readdressed steps steps')
    (s : State) :
    observations policy s steps = observations policy s steps' ∧
      run policy s steps = run policy s steps' := by
  induction h generalizing s with
  | nil => exact ⟨rfl, rfl⟩
  | cons hstep _ ih =>
    obtain ⟨hnext, hobserve⟩ := hstep.next_eq policy s
    obtain ⟨hobservations, hrun⟩ := ih (s.next policy _)
    exact ⟨by rw [observations, observations, hobserve, ← hnext, hobservations],
      by rw [run_cons, run_cons, ← hnext, hrun]⟩

/-! ### Clients apart -/

/-- What can be seen of a reply, apart from the known clients. -/
def Reply.seen (reply : Reply) : Except ClockFault Decision × List Text × List Event :=
  (reply.outcome, reply.written, reply.events)

theorem seen_checkHeader_congr {known known' : ExpiringSet}
    (hlifetime : known.lifetime = known'.lifetime) (now : Clocks) (link : Link) (request : Request)
    (writeFault : Option Text) (client : Text) (events : List Event) :
    (checkHeader policy known now link request writeFault client events).seen =
      (checkHeader policy known' now link request writeFault client events).seen := by
  unfold checkHeader
  cases header? request with
  | none => cases writeFault <;> rfl
  | some header =>
    dsimp only
    cases Verdict.ofText policy.accounts policy.nonceMaxAge now.wall header
        ⟨request.method, request.target, link.localPort⟩ with
    | accepted user =>
      dsimp only
      unfold remember ExpiringSet.add
      rw [hlifetime]
      cases now.monotonic.after known'.lifetime <;> rfl
    | refused reason => cases writeFault <;> rfl
    | violated violation => cases writeFault <;> rfl

/-- Of the known clients the gate looks at the entry of the client only. -/
theorem seen_authenticate_congr {known known' : ExpiringSet} {link : Link}
    (hlifetime : known.lifetime = known'.lifetime)
    (hdeadline : known.deadline? (clientKey link) = known'.deadline? (clientKey link))
    (now : Clocks) (request : Request) (writeFault : Option Text) :
    (authenticate policy known now link request writeFault).seen =
      (authenticate policy known' now link request writeFault).seen := by
  have hlookup := ExpiringSet.lookup_congr hdeadline now.monotonic
  unfold clientKey at hlookup
  unfold authenticate
  dsimp only
  rw [hlookup]
  split_ifs
  · rfl
  · rfl
  · rfl
  · exact seen_checkHeader_congr (by simpa using hlifetime) ..

/-- Whether a step concerns an address: the requests of others do not. -/
def Step.concerns (a : Address) : Step → Bool
  | .request link _ _ => link.client.canonical = a
  | .wait _ | .setWall _ | .purge | .sweep => true

/-- Whether a visit is of a client with the address. -/
def Visit.isOf (a : Address) (v : Visit) : Bool := v.link.client.canonical = a

/-- A visit is of the address if its step concerns it. -/
theorem filter_visit? (s : State) (step : Step) (a : Address) :
    (s.visit? policy step).filter (Visit.isOf a) =
      if step.concerns a = true then s.visit? policy step else none := by
  cases step with
  | request link request writeFault => exact Option.filter_some ..
  | _ => rfl

/-- The states agree on everything but the entries of other addresses. -/
structure AgreeOn (a : Address) (s t : State) : Prop where
  now : s.now = t.now
  sweeper : s.sweeper = t.sweeper
  lifetime : s.known.lifetime = t.known.lifetime
  distinct : s.known.DistinctKeys
  distinct' : t.known.DistinctKeys
  deadline : s.known.deadline? a.render = t.known.deadline? a.render

namespace AgreeOn

variable {a : Address} {s t : State}

theorem refl (h : s.known.DistinctKeys) : AgreeOn a s s := ⟨rfl, rfl, rfl, h, h, rfl⟩

theorem deadline_key (h : AgreeOn a s t) {link : Link} (ha : link.client.canonical = a) :
    s.known.deadline? (clientKey link) = t.known.deadline? (clientKey link) := by
  rw [clientKey, ha]
  exact h.deadline

theorem seen_reply (h : AgreeOn a s t) (policy : Policy) {link : Link}
    (ha : link.client.canonical = a) (request : Request) (writeFault : Option Text) :
    (s.reply policy link request writeFault).seen =
      (t.reply policy link request writeFault).seen := by
  subst ha
  rw [State.reply, State.reply, h.now]
  exact seen_authenticate_congr h.lifetime h.deadline ..

theorem deadline_reply (h : AgreeOn a s t) {link : Link} (ha : link.client.canonical = a)
    (request : Request) (writeFault : Option Text) :
    (s.reply policy link request writeFault).known.deadline? a.render =
      (t.reply policy link request writeFault).known.deadline? a.render := by
  by_cases hrequired : policy.required = true
  · have houtcome : (s.reply policy link request writeFault).outcome =
        (t.reply policy link request writeFault).outcome :=
      congrArg Prod.fst (h.seen_reply policy ha request writeFault)
    have hkey := h.deadline_key ha
    have hlookup := ExpiringSet.lookup_congr hkey s.now.monotonic
    subst ha
    refine (deadline?_reply_self hrequired s link request writeFault).trans ?_
    rw [houtcome, hlookup, hkey, h.now, h.lifetime]
    exact (deadline?_reply_self hrequired t link request writeFault).symm
  · rw [Bool.not_eq_true] at hrequired
    rw [known_reply_of_open hrequired, known_reply_of_open hrequired, h.deadline]

/-- A step that concerns the address is taken by both. -/
theorem next (h : AgreeOn a s t) {step : Step} (hstep : step.concerns a = true) :
    AgreeOn a (s.next policy step) (t.next policy step) where
  now := by cases step <;> simp only [State.next, h.now]
  sweeper := by cases step <;> simp only [State.next, h.now, h.sweeper]
  lifetime := by rw [lifetime_next, lifetime_next, h.lifetime]
  distinct := distinctKeys_next h.distinct step
  distinct' := distinctKeys_next h.distinct' step
  deadline := by
    have hpurge : (s.known.purge s.now.monotonic).set.deadline? a.render =
        (t.known.purge t.now.monotonic).set.deadline? a.render := by
      rw [ExpiringSet.deadline?_purge h.distinct, ExpiringSet.deadline?_purge h.distinct',
        ExpiringSet.liveDeadline?, ExpiringSet.liveDeadline?, h.deadline, h.now]
    cases step with
    | request link request writeFault =>
      exact h.deadline_reply (of_decide_eq_true hstep) request writeFault
    | wait d => exact h.deadline
    | setWall time => exact h.deadline
    | purge => exact hpurge
    | sweep =>
      simp only [State.next, Sweeper.sweep, ← h.sweeper, ← h.now] at hpurge ⊢
      split_ifs
      · exact hpurge
      · exact h.deadline

/-- A step of another client is taken by one of them. -/
theorem next_of_not_concerns (h : AgreeOn a s t) {step : Step} (hstep : step.concerns a = false) :
    AgreeOn a (s.next policy step) t := by
  cases step with
  | request link request writeFault =>
    have hother : a.render ≠ clientKey link := fun hkey =>
      of_decide_eq_false hstep (render_eq_clientKey_iff.mp hkey).symm
    exact ⟨h.now, h.sweeper, (lifetime_next s _).trans h.lifetime, distinctKeys_next h.distinct _,
      h.distinct', (deadline?_reply_of_ne hother s request writeFault).trans h.deadline⟩
  | _ => cases hstep

/-- Taking away the requests of other clients changes nothing for the address. -/
theorem run_filter (h : AgreeOn a s t) (steps : List Step) :
    AgreeOn a (run policy s steps) (run policy t (steps.filter (Step.concerns a))) := by
  induction steps generalizing s t with
  | nil => exact h
  | cons step steps ih =>
    cases hstep : step.concerns a with
    | true =>
      rw [List.filter_cons_of_pos hstep]
      exact ih (h.next hstep)
    | false =>
      rw [List.filter_cons_of_neg (by simp [hstep])]
      exact ih (h.next_of_not_concerns hstep)

theorem seen_visit? (h : AgreeOn a s t) {step : Step} (hstep : step.concerns a = true) :
    (s.visit? policy step).map (fun v => v.reply.seen) =
      (t.visit? policy step).map fun v => v.reply.seen := by
  cases step with
  | request link request writeFault =>
    exact congrArg some (h.seen_reply policy (of_decide_eq_true hstep) request writeFault)
  | _ => rfl

/-- Nor does it change any answer to the address. -/
theorem seen_visits_filter (h : AgreeOn a s t) (steps : List Step) :
    ((visits policy s steps).filter (Visit.isOf a)).map (fun v => v.reply.seen) =
      (visits policy t (steps.filter (Step.concerns a))).map fun v => v.reply.seen := by
  induction steps generalizing s t with
  | nil => rfl
  | cons step steps ih =>
    rw [visits_cons, List.filter_append, ← Option.toList_filter, filter_visit?]
    cases hstep : step.concerns a with
    | true =>
      rw [if_pos rfl, List.filter_cons_of_pos hstep, visits_cons, List.map_append, List.map_append,
        ← Option.toList_map, ← Option.toList_map, h.seen_visit? hstep, ih (h.next hstep)]
    | false =>
      rw [if_neg Bool.false_ne_true, List.filter_cons_of_neg (by simp [hstep]), Option.toList_none,
        List.nil_append, ih (h.next_of_not_concerns hstep)]

end AgreeOn

/-- **A client is its canonical address.**  On no run can a request be told from the same request
of another endpoint with the same canonical address, whatever their ports.  An address of the short
family and the long one that wraps it make the same subnets, and entries of an allowlist that differ
in the form of the address only make the same subnet as well, or are both refused.  Clients with
different canonical addresses have different entries: taking the requests of all others away from a
run changes neither the entry of a client nor any answer to it. -/
theorem client_is_canonical_address (policy : Policy) :
    (∀ (s : State) (steps steps' : List Step), List.Forall₂ Readdressed steps steps' →
      observations policy s steps = observations policy s steps' ∧
        run policy s steps = run policy s steps') ∧
    (∀ bits : BitVec 32,
      (Address.v6 (Address.mapped bits)).canonical = (Address.v4 bits).canonical ∧
      Subnet.single (.v6 (Address.mapped bits)) = Subnet.single (.v4 bits) ∧
      ∀ n, Subnet.around? (.v6 (Address.mapped bits)) n = Subnet.around? (.v4 bits) n) ∧
    (∀ (bits : BitVec 32) (short long front tail : Text),
      Address.parse? short = some (.v4 bits) →
      Address.parse? long = some (.v6 (Address.mapped bits)) →
      (∀ c ∈ front, Text.isBlank c = true) → Allowlist.IsTail tail →
      (Allowlist.parseEntry (front ++ (long ++ tail))).toOption =
        (Allowlist.parseEntry (front ++ (short ++ tail))).toOption) ∧
    (∀ (remote remote' : Endpoint) (localPort localPort' : UInt16),
      remote.address.canonical ≠ remote'.address.canonical →
      clientKey ⟨remote, localPort⟩ ≠ clientKey ⟨remote', localPort'⟩) ∧
    ∀ (s : State) (steps : List Step) (a : Address), s.known.DistinctKeys →
      let own := steps.filter (Step.concerns a)
      (run policy s steps).known.deadline? a.render =
          (run policy s own).known.deadline? a.render ∧
        ((visits policy s steps).filter (Visit.isOf a)).map (fun v => v.reply.seen) =
          (visits policy s own).map fun v => v.reply.seen := by
  have hmapped (bits : BitVec 32) :
      (Address.v6 (Address.mapped bits)).canonical = (Address.v4 bits).canonical :=
    Address.canonical_mapped bits
  refine ⟨fun s steps steps' h => observations_congr h s, fun bits => ?_,
    fun bits short long front tail hshort hlong hfront htail => ?_,
    fun remote remote' localPort localPort' hne hkey => ?_, fun s steps a hs => ?_⟩
  · exact ⟨hmapped bits, Subnet.single_congr (hmapped bits), Subnet.around?_congr (hmapped bits)⟩
  · exact Allowlist.toOption_parseEntry_congr hlong hshort (hmapped bits) hfront htail
  · exact hne (render_eq_clientKey_iff.mp hkey)
  · have hagree : AgreeOn a s s := .refl hs
    exact ⟨(hagree.run_filter steps).deadline, hagree.seen_visits_filter steps⟩

/-- Alice comes back from the wrapped form of her address and another port. -/
theorem client_comes_back_in_other_form :
    let policy : Policy := ⟨true, ⟨[⟨"alice".toList, "secret".toList, 0⟩]⟩, [], .ofSeconds 60,
      .ofSeconds 2⟩
    let s := State.start ⟨.ofParts 1700000000 0, ⟨0⟩⟩ (.ofSeconds 2) (.every (.ofSeconds 1))
    let alice : Request := ⟨"GET".toList, "/".toList, some
      ("Digest username=alice, nonce=6553f100, qop=auth, " ++
        "response=04c563db084d2fabbb5a746ff53cb94d").toList⟩
    let short : Link := ⟨⟨.v4 7, 5000⟩, 8080⟩
    let long : Link := ⟨⟨.v6 (Address.mapped 7), 6000⟩, 8080⟩
    let steps (link : Link) : List Step :=
      [.request short alice none, .wait (.ofSeconds 1), .request link alice none]
    List.Forall₂ Readdressed (steps short) (steps long) ∧
      observations policy s (steps short) = observations policy s (steps long) ∧
      (visits policy s (steps long)).map (fun v => v.reply.outcome) =
        [.ok (.authenticated .digest), .ok (.authenticated .cached)] := by
  intro policy s alice short long steps
  have hsteps : List.Forall₂ Readdressed (steps short) (steps long) :=
    .cons (.same _) (.cons (.same _) (.cons (.request 8080 alice none (by decide)) .nil))
  refine ⟨hsteps, ((client_is_canonical_address policy).1 s _ _ hsteps).1, ?_⟩
  decide +kernel

end Gate

end ProxyAuth
