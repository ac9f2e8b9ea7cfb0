import ProxyAuth.Feed
import ProxyAuth.RequestHead

/-!
# Sessions

A session serves one connection: it answers the heads of a feed one after the other, each with
exactly one page, and stops at the first rejection, the first head that is no request and the first
page that cannot be written.  What it does depends on the sequence of heads only, not on the
portions in which they arrived.
-/

namespace ProxyAuth

/-- What happens around the `k`-th head: what the clocks show, and how writing fails, if it does. -/
structure Moment where
  clocks : Clocks
  writeFault : Option Text
  deriving DecidableEq

/-- Everything that comes of a session. -/
structure Session where
  /-- The known clients afterwards. -/
  known : ExpiringSet
  /-- The pages written. -/
  written : List Text
  events : List Event
  /-- The clock fault that broke the session off, if one did. -/
  fault : Option ClockFault

namespace Session

/-- A session in which nothing has happened. -/
def start (known : ExpiringSet) : Session := ⟨known, [], [], none⟩

/-- Add a page and events to a session. -/
def record (s : Session) (written : List Text) (events : List Event) : Session :=
  { s with written := s.written ++ written, events := s.events ++ events }

/-- Whether the session goes on after a head. -/
inductive Turn
  | goesOn (session : Session)
  | stops (session : Session)

/-- Answer a request that the gate let through. -/
def allow (s : Session) (path : Path) (request : Request) (writeFault : Option Text) : Turn :=
  let allowed := Event.requestAllowed path request.method request.target
  match writeFault with
  | none => .goesOn (s.record [Page.success] [allowed])
  | some fault => .stops (s.record [] [allowed, .answerUnsent fault])

/-- Answer a head that is no request. -/
def dismiss (s : Session) (writeFault : Option Text) : Turn :=
  match writeFault with
  | none => .stops (s.record [Page.badRequest] [.headUnreadable])
  | some fault => .stops (s.record [] [.headUnreadable, .pageUnsent fault])

/-- Put a request before the gate and act on its decision. -/
def answer (policy : Policy) (link : Link) (moment : Moment) (s : Session) (request : Request) :
    Turn :=
  let reply := Gate.authenticate policy s.known moment.clocks link request moment.writeFault
  let s := { s.record reply.written reply.events with known := reply.known }
  match reply.outcome with
  | .error fault => .stops { s with fault := some fault }
  | .ok (.authenticated path) => s.allow path request moment.writeFault
  | .ok .challengeIssued => .goesOn s
  | .ok (.rejected reason) => .stops (s.record [] [.connectionDropped reason])

/-- Serve one head. -/
def serveHead (policy : Policy) (link : Link) (moment : Moment) (s : Session) (head : Bytes) :
    Turn :=
  match RequestHead.parse? head with
  | none => s.dismiss moment.writeFault
  | some request => s.answer policy link moment request

/-- The event with which reading ends. -/
def endEvent (ending : Feed.Ending) : Event :=
  match ending.fault? with
  | none => .clientLeft
  | some fault => .readFailed fault

/-- Serve heads in order, the `k`-th one at the `k`-th moment, until the session stops or there are
no more. -/
def serveHeads (policy : Policy) (link : Link) (ending : Feed.Ending) :
    (Nat → Moment) → Session → List Bytes → Session
  | _, s, [] => s.record [] [endEvent ending]
  | moments, s, head :: heads =>
      match s.serveHead policy link (moments 0) head with
      | .stops s => s
      | .goesOn s => serveHeads policy link ending (fun k => moments (k + 1)) s heads

/-- Serve a connection. -/
def serve (policy : Policy) (link : Link) (moments : Nat → Moment) (known : ExpiringSet)
    (feed : Feed) : Session :=
  let (heads, ending) := feed.heads
  serveHeads policy link ending moments (start known) heads

/-- All bytes written in a session. -/
def bytes (s : Session) : Bytes := Utf8.encode s.written.flatten

end Session

end ProxyAuth
