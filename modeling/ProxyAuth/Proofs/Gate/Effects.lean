import Mathlib.Tactic
import ProxyAuth.Proofs.Gate.Answer

/-!
# What a decision announces

The decision on a request tells which page the gate wrote, which measurement it took and whether
writing succeeded, whatever the policy and the known clients are.

* `written_authenticate`, `metrics_authenticate`: the page and the measurement of a decision;
* `render_ofMetric`, `outcome_eq_iff_rendered`: the words of a measurement, which tell the decision;
* `fits_authenticate`: the decisions that a failing write admits;
* `writeFaults_of_outcome`: the writes that failed with a decision;
* `effects_eq_of_kind_eq`: requests with verdicts of one kind have the same effects.
-/

namespace ProxyAuth

/-- The measurement of a decision. -/
def Decision.metric : Decision → Metric
  | .authenticated path => .authenticated path
  | .challengeIssued => .challenge
  | .rejected reason => .rejected reason

/-- A page that was written came through, and only a page that did not is an internal fault. -/
def Decision.Fits (writeFault : Option Text) : Decision → Prop
  | .authenticated _ => True
  | .challengeIssued => writeFault = none
  | .rejected .protocol => writeFault = none
  | .rejected .internal => writeFault ≠ none

/-- Events are measured one by one. -/
@[simp] theorem Event.metrics_cons (e : Event) (events : List Event) :
    Event.metrics (e :: events) = e.metric?.toList ++ Event.metrics events := by
  rw [Event.metrics, List.filterMap_cons]
  cases e.metric? <;> rfl

/-- The fault of a failed write that an event reports. -/
def Event.writeFault? : Event → Option Text
  | .challengeUnsent _ fault | .refusalUnsent _ fault | .answerUnsent fault | .pageUnsent fault =>
      some fault
  | _ => none

/-- The failed writes among events, in order, by their faults. -/
def Event.writeFaults (events : List Event) : List Text := events.filterMap writeFault?

@[simp] theorem Event.writeFaults_nil : writeFaults [] = [] := rfl

@[simp] theorem Event.writeFaults_cons (e : Event) (events : List Event) :
    writeFaults (e :: events) = e.writeFault?.toList ++ writeFaults events := by
  rw [writeFaults, List.filterMap_cons]
  cases e.writeFault? <;> rfl

@[simp] theorem Event.writeFaults_append (a b : List Event) :
    writeFaults (a ++ b) = writeFaults a ++ writeFaults b :=
  List.filterMap_append

/-! ### Words -/

theorem Decision.metric_injective : Function.Injective Decision.metric := by
  intro a b h
  cases a <;> cases b <;> simp_all [Decision.metric]

theorem Path.name_injective : Function.Injective Path.name := by
  intro a b h
  cases a <;> cases b <;> first | rfl | exact absurd h (by decide)

theorem Rejection.name_injective : Function.Injective Rejection.name := by
  intro a b h
  cases a <;> cases b <;> first | rfl | exact absurd h (by decide)

/-- What a measurement counts. -/
def Metric.kind : Metric → Text
  | .authenticated _ => "authenticated".toList
  | .challenge => "challenge".toList
  | .rejected _ => "rejected".toList

/-- A measurement in one line has the kind of the measurement and the words that are logged with it,
and nothing else. -/
theorem Metric.render_ofMetric (m : Metric) :
    m.render = m.kind ++ (Event.ofMetric m).fields.flatMap fun field => ' ' :: field.2 := by
  cases m with
  | authenticated path =>
    have hmark : "authenticated ".toList = "authenticated".toList ++ [' '] := by decide
    rw [render_authenticated, hmark, List.append_assoc, ← List.append_nil ([' '] ++ path.name)]
    rfl
  | challenge => rfl
  | rejected reason =>
    have hmark : "rejected ".toList = "rejected".toList ++ [' '] := by decide
    rw [render_rejected, hmark, List.append_assoc, ← List.append_nil ([' '] ++ reason.name)]
    rfl

/-- Different measurements are told apart by their lines. -/
theorem Metric.render_injective : Function.Injective Metric.render := by
  intro a b h
  have hfirst := congrArg List.head? h
  match a, b with
  | .authenticated path, .authenticated path' =>
    rw [Path.name_injective (List.append_cancel_left h)]
  | .challenge, .challenge => rfl
  | .rejected reason, .rejected reason' =>
    rw [Rejection.name_injective (List.append_cancel_left h)]
  | .authenticated _, .challenge | .challenge, .authenticated _ | .authenticated _, .rejected _
  | .rejected _, .authenticated _ | .challenge, .rejected _ | .rejected _, .challenge =>
    simp [render_authenticated, render_challenge, render_rejected] at hfirst

namespace Gate

/-- The page that the gate writes with a decision. -/
def pageOf? (now : WallTime) : Decision → Option Text
  | .authenticated _ => none
  | .challengeIssued => some (Page.challenge Digest.realm (Nonce.issue now))
  | .rejected .protocol => some Page.badRequest
  | .rejected .internal => none

/-! ### Pages -/

/-- The answer to a client that has to show a header is a decision with its page. -/
theorem answerOf_spec (now : Clocks) (lifetime : Duration) (writeFault : Option Text)
    (kind : Option Verdict.Kind) :
    let answer := answerOf now lifetime writeFault kind
    answer.2 = (answer.1.toOption.bind (pageOf? now.wall)).toList ∧
      ∀ decision, answer.1 = .ok decision → decision.Fits writeFault := by
  match kind with
  | some .accepted =>
    cases hdeadline : now.monotonic.after lifetime with
    | ok deadline => simp [answerOf, hdeadline, Except.map, Except.toOption, pageOf?, Decision.Fits]
    | error fault => simp [answerOf, hdeadline, Except.map, Except.toOption]
  | some .violated =>
    cases writeFault <;> simp [answerOf, Except.toOption, pageOf?, Decision.Fits]
  | some .refused =>
    cases writeFault <;> simp [answerOf, Except.toOption, pageOf?, Decision.Fits]
  | none => cases writeFault <;> simp [answerOf, Except.toOption, pageOf?, Decision.Fits]

variable (policy : Policy) (known : ExpiringSet) (now : Clocks) (link : Link) (request : Request)
  (writeFault : Option Text)

theorem page_authenticate :
    let reply := authenticate policy known now link request writeFault
    reply.written = (reply.outcome.toOption.bind (pageOf? now.wall)).toList ∧
      ∀ decision, reply.outcome = .ok decision → decision.Fits writeFault := by
  intro reply
  by_cases hconsults : Consults policy known now link
  · have houtcome : reply.outcome = _ := hconsults.outcome_eq request writeFault
    have hwritten : reply.written = _ := hconsults.written_eq request writeFault
    rw [houtcome, hwritten]
    exact answerOf_spec now known.lifetime writeFault _
  · obtain ⟨⟨path, houtcome⟩, hwritten⟩ : (∃ path, reply.outcome = .ok (.authenticated path)) ∧
        reply.written = [] := answer_of_not_consults request writeFault hconsults
    rw [houtcome, hwritten]
    simp [Except.toOption, pageOf?, Decision.Fits]

/-- The pages written are those of the decision. -/
theorem written_authenticate :
    let reply := authenticate policy known now link request writeFault
    reply.written = (reply.outcome.toOption.bind (pageOf? now.wall)).toList :=
  (page_authenticate policy known now link request writeFault).1

theorem written_of_outcome {decision : Decision}
    (h : (authenticate policy known now link request writeFault).outcome = .ok decision) :
    (authenticate policy known now link request writeFault).written =
      (pageOf? now.wall decision).toList :=
  (written_authenticate policy known now link request writeFault).trans (by rw [h]; rfl)

/-- The decision fits how writing went. -/
theorem fits_authenticate {decision : Decision}
    (h : (authenticate policy known now link request writeFault).outcome = .ok decision) :
    decision.Fits writeFault :=
  (page_authenticate policy known now link request writeFault).2 decision h

/-! ### Measurements and failed writes -/

theorem metrics_eventsOfLookup : Event.metrics (eventsOfLookup known now link) = [] := by
  unfold eventsOfLookup lookupEvents
  split <;> rfl

theorem writeFaults_eventsOfLookup : Event.writeFaults (eventsOfLookup known now link) = [] := by
  unfold eventsOfLookup lookupEvents
  split <;> rfl

/-- The fault of the write that failed, where the outcome tells of one. -/
def faultOf? (writeFault : Option Text) (outcome : Except ClockFault Decision) : Option Text :=
  if outcome = .ok (.rejected .internal) then writeFault else none

theorem reports_checkHeader (client : Text) (events : List Event) :
    let reply := checkHeader policy known now link request writeFault client events
    Event.metrics reply.events =
      Event.metrics events ++ (reply.outcome.toOption.map Decision.metric).toList ∧
    Event.writeFaults reply.events =
      Event.writeFaults events ++ (faultOf? writeFault reply.outcome).toList := by
  unfold checkHeader
  cases header? request with
  | none =>
    cases writeFault <;>
      simp [issueChallenge, reject, Except.toOption, Decision.metric, Event.metric?,
        Event.writeFault?, faultOf?]
  | some header =>
    dsimp only
    cases Verdict.ofText policy.accounts policy.nonceMaxAge now.wall header
        ⟨request.method, request.target, link.localPort⟩ with
    | accepted user =>
      cases hdeadline : now.monotonic.after known.lifetime <;>
        simp [remember, ExpiringSet.add, hdeadline, Except.map, accept, Except.toOption,
          Decision.metric, Event.metric?, Event.writeFault?, faultOf?]
    | refused reason =>
      cases writeFault <;>
        simp [issueChallenge, reject, Except.toOption, Decision.metric, Event.metric?,
          Event.writeFault?, faultOf?]
    | violated violation =>
      cases writeFault <;>
        simp [refuse, reject, Except.toOption, Decision.metric, Event.metric?,
          Event.writeFault?, faultOf?]

theorem reports_authenticate :
    let reply := authenticate policy known now link request writeFault
    Event.metrics reply.events = (reply.outcome.toOption.map Decision.metric).toList ∧
      Event.writeFaults reply.events = (faultOf? writeFault reply.outcome).toList := by
  have hmetrics := metrics_eventsOfLookup known now link
  have hfaults := writeFaults_eventsOfLookup known now link
  refine authenticate_cases request writeFault (fun _ => ?_) (fun _ _ => ?_) (fun _ _ _ => ?_)
    fun _ => ?_
  · exact ⟨rfl, rfl⟩
  · simp only [accept, Event.metrics_append, Event.writeFaults_append, hmetrics, hfaults]
    exact ⟨rfl, rfl⟩
  · simp only [accept, Event.metrics_append, Event.writeFaults_append, hmetrics, hfaults]
    exact ⟨rfl, rfl⟩
  · have h := reports_checkHeader policy (known.afterLookup now.monotonic (clientKey link)) now link
      request writeFault (clientKey link) (eventsOfLookup known now link)
    simpa only [hmetrics, hfaults, List.nil_append] using h

/-- One measurement is taken, that of the decision. -/
theorem metrics_authenticate :
    let reply := authenticate policy known now link request writeFault
    Event.metrics reply.events = (reply.outcome.toOption.map Decision.metric).toList :=
  (reports_authenticate policy known now link request writeFault).1

theorem metrics_of_outcome {decision : Decision}
    (h : (authenticate policy known now link request writeFault).outcome = .ok decision) :
    Event.metrics (authenticate policy known now link request writeFault).events =
      [decision.metric] :=
  (metrics_authenticate policy known now link request writeFault).trans (by rw [h]; rfl)

/-- The line that the measurements get tells the decision. -/
theorem outcome_eq_iff_rendered {decision : Decision} :
    let reply := authenticate policy known now link request writeFault
    reply.outcome = .ok decision ↔
      (Event.metrics reply.events).map Metric.render = [decision.metric.render] := by
  intro reply
  have hmetrics : Event.metrics reply.events = _ := metrics_authenticate ..
  rw [hmetrics]
  cases reply.outcome with
  | error fault => simp [Except.toOption]
  | ok decided =>
    simp only [Except.toOption, Option.map_some, Option.toList_some, List.map_cons, List.map_nil,
      List.cons.injEq, and_true, Except.ok.injEq]
    rw [Metric.render_injective.eq_iff, Decision.metric_injective.eq_iff]

/-- The gate gives up where its one write fails, and no other write fails. -/
theorem writeFaults_of_outcome {decision : Decision}
    (h : (authenticate policy known now link request writeFault).outcome = .ok decision) :
    Event.writeFaults (authenticate policy known now link request writeFault).events =
      (if decision = .rejected .internal then writeFault else none).toList :=
  (reports_authenticate policy known now link request writeFault).2.trans (by
    rw [h, faultOf?]
    simp only [Except.ok.injEq])

/-! ### Replies with the same effects -/

/-- The same decision, pages, measurements and known clients; the log may differ. -/
structure SameEffects (reply reply' : Reply) : Prop where
  outcome : reply.outcome = reply'.outcome
  written : reply.written = reply'.written
  metrics : Event.metrics reply.events = Event.metrics reply'.events
  known : reply.known = reply'.known

/-- Of a verdict nothing but the kind has an effect. -/
theorem effects_eq_of_kind_eq {request' : Request}
    (h : (verdict? policy now.wall link request).map Verdict.kind =
      (verdict? policy now.wall link request').map Verdict.kind) :
    SameEffects (authenticate policy known now link request writeFault)
      (authenticate policy known now link request' writeFault) := by
  by_cases hconsults : Consults policy known now link
  · have houtcome : (authenticate policy known now link request writeFault).outcome =
        (authenticate policy known now link request' writeFault).outcome := by
      rw [hconsults.outcome_eq, hconsults.outcome_eq, h]
    refine ⟨houtcome, ?_, ?_, ?_⟩
    · rw [hconsults.written_eq, hconsults.written_eq, h]
    · rw [metrics_authenticate, metrics_authenticate, houtcome]
    · obtain ⟨hadded, hkept⟩ :=
        known_authenticate hconsults.required known now link request writeFault
      obtain ⟨hadded', hkept'⟩ :=
        known_authenticate hconsults.required known now link request' writeFault
      by_cases hdigest : (authenticate policy known now link request writeFault).outcome =
          .ok (.authenticated .digest)
      · rw [hadded hdigest, hadded' (houtcome ▸ hdigest)]
      · rw [hkept hdigest, hkept' (houtcome ▸ hdigest)]
  · rw [authenticate_of_not_consults request writeFault hconsults request']
    exact ⟨rfl, rfl, rfl, rfl⟩

end Gate

end ProxyAuth
