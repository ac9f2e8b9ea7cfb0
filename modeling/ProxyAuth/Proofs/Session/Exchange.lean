import Mathlib.Tactic
import ProxyAuth.Proofs.Challenge
import ProxyAuth.Proofs.Feed
import ProxyAuth.Proofs.Gate.Effects
import ProxyAuth.Proofs.Nonce.Freshness
import ProxyAuth.Session

/-!
# One head at a time

What a session writes, decides and remembers is said head by head, without a buffer, portions or a
session: an `Exchange` is what comes of one head, and the exchanges of a list of heads go on from
the clients that the one before knew, up to the first that ends the connection.

* `Exchange.handle`, `Exchange.handleAll`: one head, and one head after the other;
* `Answers`: the response to a head, by what was decided about it;
* `Answers.isFramed`, `isFramed_of_mem_written`: a client knows where each response ends;
* `serveHead_spec`, `serveHeads_extends`: a session adds what comes of its heads one at a time;
* `serve_stream`: so does a session on a stream of bytes, however the bytes arrive.
-/

namespace ProxyAuth

/-! ### Pages are told apart -/

namespace Page

theorem challenge_ne_badRequest (realm nonce : Text) : challenge realm nonce ≠ badRequest := by
  -- They differ in the third digit of the status.
  intro h
  have hdigit := congrArg (·[11]?) h
  simp [challenge, badRequest, withDocument, headLines] at hdigit

theorem success_ne_badRequest : success ≠ badRequest := by decide

end Page

/-! ### Exchanges -/

/-- What comes of one head. -/
structure Exchange where
  /-- What the gate said, where the head is a request. -/
  outcome? : Option (Except ClockFault Decision)
  /-- The response, where it could be written. -/
  response? : Option Text
  /-- The known clients afterwards. -/
  known : ExpiringSet

namespace Exchange

/-- The response to a head, by what the gate said about it; a head that is no request gets the page
400 as well. -/
def responseTo? (now : WallTime) : Option (Except ClockFault Decision) → Option Text
  | none => some Page.badRequest
  | some (.error _) => none
  | some (.ok (.authenticated _)) => some Page.success
  | some (.ok decision) => Gate.pageOf? now decision

/-- What is left of a response when it is written. -/
def sent? (moment : Moment) (response? : Option Text) : Option Text :=
  if moment.writeFault = none then response? else none

/-- Handle one head. -/
def handle (policy : Policy) (link : Link) (moment : Moment) (known : ExpiringSet) (head : Bytes) :
    Exchange :=
  match RequestHead.parse? head with
  | none => ⟨none, sent? moment (responseTo? moment.clocks.wall none), known⟩
  | some request =>
      let reply := Gate.authenticate policy known moment.clocks link request moment.writeFault
      ⟨some reply.outcome, sent? moment (responseTo? moment.clocks.wall (some reply.outcome)),
        reply.known⟩

/-- Whether the connection ends with a head: nothing could be written, or the page 400 was. -/
def IsLast (x : Exchange) : Prop := x.response? = none ∨ x.response? = some Page.badRequest

instance (x : Exchange) : Decidable x.IsLast := inferInstanceAs (Decidable (_ ∨ _))

/-- Handle heads in order, the `k`-th one at the `k`-th moment, up to one that is the last. -/
def handleAll (policy : Policy) (link : Link) :
    (Nat → Moment) → ExpiringSet → List Bytes → List Exchange
  | _, _, [] => []
  | moments, known, head :: heads =>
      let x := handle policy link (moments 0) known head
      if x.IsLast then [x]
      else x :: handleAll policy link (fun k => moments (k + 1)) x.known heads

/-- The clients that are known after exchanges. -/
def knownAfter (known : ExpiringSet) (exchanges : List Exchange) : ExpiringSet :=
  (exchanges.getLast?.map Exchange.known).getD known

theorem knownAfter_cons (known : ExpiringSet) (x : Exchange) (xs : List Exchange) :
    knownAfter known (x :: xs) = knownAfter x.known xs := by
  rw [knownAfter, List.getLast?_cons]
  unfold knownAfter
  cases xs.getLast? <;> rfl

/-- The measurement of an exchange. -/
def metric? (x : Exchange) : Option Metric :=
  (x.outcome?.bind Except.toOption).map Decision.metric

/-- The clock fault of an exchange. -/
def fault? (x : Exchange) : Option ClockFault :=
  match x.outcome? with
  | some (.error fault) => some fault
  | _ => none

@[simp] theorem metric?_decided (decision : Decision) (response? : Option Text)
    (known : ExpiringSet) :
    metric? ⟨some (.ok decision), response?, known⟩ = some decision.metric := rfl

@[simp] theorem fault?_decided (decision : Decision) (response? : Option Text)
    (known : ExpiringSet) : fault? ⟨some (.ok decision), response?, known⟩ = none := rfl

/-- Exactly one response to a head, by what was decided about it; none only where the clock
failed. -/
inductive Answers (now : WallTime) : Option (Except ClockFault Decision) → Option Text → Prop
  | allowed (path : Path) : Answers now (some (.ok (.authenticated path))) (some Page.success)
  | challenged :
      Answers now (some (.ok .challengeIssued))
        (some (Page.challenge Digest.realm (Nonce.issue now)))
  | refused : Answers now (some (.ok (.rejected .protocol))) (some Page.badRequest)
  | unreadable : Answers now none (some Page.badRequest)
  | brokenOff (fault : ClockFault) : Answers now (some (.error fault)) none

/-- Each response has its status line, and the header line that states the length of its body. -/
theorem Answers.isFramed {now : WallTime} {outcome? : Option (Except ClockFault Decision)}
    {page : Text} (hnow : now.InRange) (h : Answers now outcome? (some page)) :
    ∃ status ∈ ["HTTP/1.1 200 OK", "HTTP/1.1 400 Bad Request",
        "HTTP/1.1 407 Proxy Authentication Required"].map String.toList,
      ∃ sent body, Page.IsFramed page status sent body := by
  cases h with
  | allowed path => exact ⟨_, .head _, _, _, Page.isFramed_success⟩
  | refused | unreadable => exact ⟨_, .tail _ (.head _), _, _, Page.isFramed_badRequest⟩
  | challenged =>
    have hnonce := Challenge.isPlain_issue hnow.unixSeconds_lt
    exact ⟨_, .tail _ (.tail _ (.head _)), _, _,
      Challenge.isFramed_page Challenge.isPlain_realm hnonce⟩

variable {policy : Policy} {link : Link} {moment : Moment} {moments : Nat → Moment}
  {known : ExpiringSet} {head : Bytes} {heads : List Bytes}

theorem response?_of_writeFault (h : moment.writeFault ≠ none) :
    (handle policy link moment known head).response? = none := by
  unfold handle
  cases RequestHead.parse? head <;> simp [sent?, h]

/-- A request is handled as the gate says. -/
theorem handle_of_parse {request : Request} (hparse : RequestHead.parse? head = some request)
    (hw : moment.writeFault = none) :
    let reply := Gate.authenticate policy known moment.clocks link request none
    handle policy link moment known head =
      ⟨some reply.outcome, responseTo? moment.clocks.wall (some reply.outcome), reply.known⟩ := by
  rw [handle, hparse]
  dsimp only
  rw [sent?, if_pos hw, hw]

/-- Where writing succeeds every head gets its response. -/
theorem answers_handle (h : moment.writeFault = none) :
    Answers moment.clocks.wall (handle policy link moment known head).outcome?
      (handle policy link moment known head).response? := by
  unfold handle
  cases RequestHead.parse? head with
  | none =>
    rw [sent?, if_pos h]
    exact .unreadable
  | some request =>
    dsimp only
    rw [sent?, if_pos h]
    cases houtcome : (Gate.authenticate policy known moment.clocks link request
      moment.writeFault).outcome with
    | error fault => exact .brokenOff fault
    | ok decision =>
      have hfits := Gate.fits_authenticate policy known moment.clocks link request
        moment.writeFault houtcome
      match decision with
      | .authenticated path => exact .allowed path
      | .challengeIssued => exact .challenged
      | .rejected .protocol => exact .refused
      | .rejected .internal => exact absurd h hfits

theorem handleAll_cons (head : Bytes) (heads : List Bytes) :
    handleAll policy link moments known (head :: heads) =
      let x := handle policy link (moments 0) known head
      if x.IsLast then [x]
      else x :: handleAll policy link (fun k => moments (k + 1)) x.known heads :=
  rfl

theorem handleAll_cons_of_not_isLast
    (h : ¬ (handle policy link (moments 0) known head).IsLast) (heads : List Bytes) :
    handleAll policy link moments known (head :: heads) =
      handle policy link (moments 0) known head ::
        handleAll policy link (fun k => moments (k + 1))
          (handle policy link (moments 0) known head).known heads := by
  rw [handleAll_cons]
  exact if_neg h

theorem handleAll_singleton (head : Bytes) :
    handleAll policy link moments known [head] = [handle policy link (moments 0) known head] := by
  rw [handleAll_cons]
  exact ite_self _

/-- Each exchange is that of its head at its moment, with the clients known from those before it,
and none follows one that is the last. -/
theorem getElem?_handleAll {k : Nat} {x : Exchange}
    (h : (handleAll policy link moments known heads)[k]? = some x) :
    (∃ head, heads[k]? = some head ∧ x = handle policy link (moments k)
      (knownAfter known ((handleAll policy link moments known heads).take k)) head) ∧
      (x.IsLast → (handleAll policy link moments known heads).length = k + 1) := by
  induction heads generalizing moments known k with
  | nil => cases h
  | cons head heads ih =>
    rw [handleAll_cons] at h ⊢
    dsimp only at h ⊢
    split_ifs at h ⊢ with hlast
    · obtain ⟨rfl, rfl⟩ : k = 0 ∧ handle policy link (moments 0) known head = x := by
        simpa [List.getElem?_singleton] using h
      exact ⟨⟨head, rfl, rfl⟩, fun _ => rfl⟩
    · cases k with
      | zero =>
        obtain rfl := Option.some.inj h
        exact ⟨⟨head, rfl, rfl⟩, fun hx => absurd hx hlast⟩
      | succ k =>
        obtain ⟨⟨next, hnext, hx⟩, hlength⟩ := ih (k := k) h
        refine ⟨⟨next, hnext, ?_⟩, fun hx => by rw [List.length_cons, hlength hx]⟩
        rw [List.take_succ_cons, knownAfter_cons]
        exact hx

end Exchange

/-! ### Sessions -/

namespace Session

open Exchange

/-- The session at the end of a turn. -/
def Turn.session : Turn → Session
  | .goesOn s => s
  | .stops s => s

@[simp] theorem Turn.session_goesOn (s : Session) : Turn.session (.goesOn s) = s := rfl

@[simp] theorem Turn.session_stops (s : Session) : Turn.session (.stops s) = s := rfl

@[simp] theorem written_record (s : Session) (written : List Text) (events : List Event) :
    (s.record written events).written = s.written ++ written := rfl

@[simp] theorem events_record (s : Session) (written : List Text) (events : List Event) :
    (s.record written events).events = s.events ++ events := rfl

@[simp] theorem known_record (s : Session) (written : List Text) (events : List Event) :
    (s.record written events).known = s.known := rfl

@[simp] theorem fault_record (s : Session) (written : List Text) (events : List Event) :
    (s.record written events).fault = s.fault := rfl

variable {policy : Policy} {link : Link} {moment : Moment} {moments : Nat → Moment}
  {ending ending' : Feed.Ending} {s t u : Session} {head : Bytes} {heads : List Bytes}

/-! ### One turn -/

/-- A turn adds an exchange to a session, and stops it if the exchange is the last. -/
structure Turn.Performs (turn : Turn) (s : Session) (x : Exchange) : Prop where
  written : turn.session.written = s.written ++ x.response?.toList
  metrics : Event.metrics turn.session.events = Event.metrics s.events ++ x.metric?.toList
  known : turn.session.known = x.known
  fault : turn.session.fault = x.fault?.or s.fault
  stops : x.IsLast → turn = .stops turn.session
  goesOn : ¬ x.IsLast → turn = .goesOn turn.session

/-- What is no request gets the page 400, and the session stops. -/
theorem performs_dismiss (s : Session) (hparse : RequestHead.parse? head = none) :
    (s.dismiss moment.writeFault).Performs s (handle policy link moment s.known head) := by
  rw [handle, hparse]
  unfold dismiss
  cases hw : moment.writeFault <;> refine ⟨?_, ?_, ?_, ?_, ?_, ?_⟩ <;>
    simp [sent?, responseTo?, IsLast, hw, metric?, fault?, Event.metric?]

/-- A request gets the response that belongs to the decision of the gate. -/
theorem performs_answer (s : Session) {request : Request}
    (hparse : RequestHead.parse? head = some request) :
    (s.answer policy link moment request).Performs s (handle policy link moment s.known head) := by
  have hwritten := Gate.written_authenticate policy s.known moment.clocks link request
    moment.writeFault
  have hmetrics := Gate.metrics_authenticate policy s.known moment.clocks link request
    moment.writeFault
  have hfits : ∀ decision : Decision, _ → decision.Fits moment.writeFault := fun _ =>
    Gate.fits_authenticate policy s.known moment.clocks link request moment.writeFault
  rw [handle, hparse, answer]
  dsimp only at hwritten hmetrics hfits ⊢
  generalize Gate.authenticate policy s.known moment.clocks link request moment.writeFault =
    reply at hwritten hmetrics hfits ⊢
  obtain ⟨known, outcome, written, events⟩ := reply
  dsimp only at hwritten hmetrics hfits ⊢
  match outcome with
  | .error fault =>
    obtain rfl : written = [] := hwritten
    refine ⟨?_, ?_, ?_, ?_, ?_, ?_⟩ <;>
      simp [sent?, responseTo?, IsLast, metric?, fault?, hmetrics, Except.toOption]
  | .ok (.authenticated path) =>
    -- The gate wrote nothing, and the session writes its page if it can.
    obtain rfl : written = [] := hwritten
    cases hw : moment.writeFault <;> refine ⟨?_, ?_, ?_, ?_, ?_, ?_⟩ <;>
      simp [sent?, responseTo?, IsLast, hw, allow, hmetrics, Except.toOption,
        Page.success_ne_badRequest, Event.metric?]
  | .ok .challengeIssued =>
    obtain rfl : written = [Page.challenge Digest.realm (Nonce.issue moment.clocks.wall)] :=
      hwritten
    have hw : moment.writeFault = none := hfits _ rfl
    refine ⟨?_, ?_, ?_, ?_, ?_, ?_⟩ <;>
      simp [sent?, responseTo?, IsLast, hw, hmetrics, Except.toOption, Gate.pageOf?,
        Page.challenge_ne_badRequest]
  | .ok (.rejected .protocol) =>
    obtain rfl : written = [Page.badRequest] := hwritten
    have hw : moment.writeFault = none := hfits _ rfl
    refine ⟨?_, ?_, ?_, ?_, ?_, ?_⟩ <;>
      simp [sent?, responseTo?, IsLast, hw, hmetrics, Except.toOption, Gate.pageOf?,
        Event.metric?]
  | .ok (.rejected .internal) =>
    obtain rfl : written = [] := hwritten
    have hw : moment.writeFault ≠ none := hfits _ rfl
    refine ⟨?_, ?_, ?_, ?_, ?_, ?_⟩ <;>
      simp [sent?, IsLast, hw, hmetrics, Except.toOption, Event.metric?]

/-- One turn of a session handles one head. -/
theorem serveHead_spec (policy : Policy) (link : Link) (moment : Moment) (s : Session)
    (head : Bytes) :
    (s.serveHead policy link moment head).Performs s (handle policy link moment s.known head) := by
  unfold serveHead
  cases hparse : RequestHead.parse? head with
  | none => exact performs_dismiss s hparse
  | some request => exact performs_answer s hparse

/-! ### All turns -/

/-- One session is another and what came of the heads since then. -/
structure Extends (before after : Session) (exchanges : List Exchange) : Prop where
  written : after.written = before.written ++ exchanges.filterMap Exchange.response?
  metrics : Event.metrics after.events =
    Event.metrics before.events ++ exchanges.filterMap Exchange.metric?
  known : after.known = knownAfter before.known exchanges
  fault : after.fault = (exchanges.getLast?.bind Exchange.fault?).or before.fault

theorem filterMap_cons_toList {α β : Type} (f : α → Option β) (x : α) (xs : List α) :
    (x :: xs).filterMap f = (f x).toList ++ xs.filterMap f := by
  rw [List.filterMap_cons]
  cases f x <;> rfl

/-- A last turn. -/
theorem Turn.Performs.extends_last {turn : Turn} {x : Exchange} (h : turn.Performs s x) :
    Extends s turn.session [x] where
  written := by rw [h.written, filterMap_cons_toList, List.filterMap_nil, List.append_nil]
  metrics := by rw [h.metrics, filterMap_cons_toList, List.filterMap_nil, List.append_nil]
  known := h.known
  fault := h.fault

/-- The clock failed only in an exchange that is the last. -/
theorem fault?_of_not_isLast (h : ¬ (handle policy link moment s.known head).IsLast) :
    (handle policy link moment s.known head).fault? = none := by
  have hresponse : (handle policy link moment s.known head).response? ≠ none :=
    fun hnone => h (.inl hnone)
  have hw : moment.writeFault = none := by
    by_contra hw
    exact hresponse (response?_of_writeFault hw)
  have hanswers : Answers moment.clocks.wall (handle policy link moment s.known head).outcome?
      (handle policy link moment s.known head).response? := answers_handle hw
  unfold fault?
  split
  · rename_i fault houtcome
    rw [houtcome] at hanswers
    generalize (handle policy link moment s.known head).response? = response? at *
    cases hanswers
    exact absurd rfl hresponse
  · rfl

/-- A turn before others. -/
theorem Turn.Performs.extends_cons {turn : Turn} {x : Exchange} {xs : List Exchange}
    (h : turn.Performs s x) (hfault : x.fault? = none) (hs : Extends turn.session t xs) :
    Extends s t (x :: xs) where
  written := by rw [hs.written, h.written, filterMap_cons_toList, List.append_assoc]
  metrics := by rw [hs.metrics, h.metrics, filterMap_cons_toList, List.append_assoc]
  known := by rw [hs.known, h.known, knownAfter_cons]
  fault := by
    rw [hs.fault, h.fault, hfault, List.getLast?_cons]
    cases xs.getLast? <;> simp [hfault]

/-- A session on a list of heads adds what comes of them one at a time. -/
theorem serveHeads_extends (policy : Policy) (link : Link) (ending : Feed.Ending)
    (moments : Nat → Moment) (s : Session) (heads : List Bytes) :
    Extends s (serveHeads policy link ending moments s heads)
      (handleAll policy link moments s.known heads) := by
  induction heads generalizing moments s with
  | nil =>
    refine ⟨by simp [serveHeads, handleAll], ?_, rfl, rfl⟩
    cases ending <;> simp [serveHeads, handleAll, endEvent, Feed.Ending.fault?, Event.metric?]
  | cons head heads ih =>
    have hturn := serveHead_spec policy link (moments 0) s head
    rw [handleAll_cons, serveHeads]
    dsimp only
    split_ifs with hlast
    · rw [hturn.stops hlast]
      exact hturn.extends_last
    · rw [hturn.goesOn hlast]
      have hrest := ih (fun k => moments (k + 1))
        (s.serveHead policy link (moments 0) head).session
      rw [hturn.known] at hrest
      exact hturn.extends_cons (fault?_of_not_isLast hlast) hrest

/-- A session on a stream adds what comes of its heads one at a time. -/
theorem serve_extends (policy : Policy) (link : Link) (moments : Nat → Moment)
    (known : ExpiringSet) {portions heads : List Bytes}
    (hheads : Feed.headsOf portions.flatten = heads)
    (hlength : ∀ head ∈ heads, head.length ≤ Feed.maxHeadLength) :
    Extends (start known) (serve policy link moments known ⟨[], portions⟩)
      (handleAll policy link moments known heads) := by
  subst hheads
  have hfeed : (⟨[], portions⟩ : Feed).heads = (Feed.headsOf portions.flatten,
      Feed.endingOf (Feed.remainderOf portions.flatten)) := Feed.heads_eq hlength
  rw [serve, hfeed]
  exact serveHeads_extends policy link _ moments (start known) _

/-- Every page that a session writes is framed. -/
theorem isFramed_of_mem_written {clients : ExpiringSet} {feed : Feed} {page : Text}
    (hrange : ∀ k, (moments k).clocks.wall.InRange)
    (hpage : page ∈ (serve policy link moments clients feed).written) :
    ∃ status ∈ ["HTTP/1.1 200 OK", "HTTP/1.1 400 Bad Request",
        "HTTP/1.1 407 Proxy Authentication Required"].map String.toList,
      ∃ sent body, Page.IsFramed page status sent body := by
  rw [serve, (serveHeads_extends policy link _ moments (start clients) _).written] at hpage
  obtain ⟨x, hx, hresponse⟩ := List.mem_filterMap.mp hpage
  obtain ⟨k, hk⟩ := List.mem_iff_getElem?.mp hx
  obtain ⟨⟨head, -, rfl⟩, -⟩ := Exchange.getElem?_handleAll hk
  have hw : (moments k).writeFault = none := by
    by_contra hw
    rw [Exchange.response?_of_writeFault hw] at hresponse
    cases hresponse
  exact (hresponse ▸ Exchange.answers_handle hw).isFramed (hrange k)

end Session

end ProxyAuth
