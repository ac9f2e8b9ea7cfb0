import ProxyAuth.Decision
import ProxyAuth.Verdict

/-!
# Events and measurements

Whatever happens is reported as an event with a level, a message and fields.  Measurements count
decisions without naming clients or users; each is an event as well.
-/

namespace ProxyAuth

open Text

/-- The importance of an event. -/
inductive Level
  | error
  | warn
  | info
  | debug
  deriving DecidableEq

/-- A counted decision. -/
inductive Metric
  | authenticated (path : Path)
  | challenge
  | rejected (reason : Rejection)
  deriving DecidableEq

/-- What is reported. -/
inductive Event
  | accountLoaded (name : Text) (port : UInt16)
  | keyExpired (key : Text)
  | keysPurged (count : Nat)
  | clientCached (client : Text)
  | clientAllowed (client : Text)
  | clientAccepted (client user : Text)
  | clientRefused (client : Text) (reason : Refusal)
  | clientViolated (client : Text) (violation : Violation)
  | challengeSent (client nonce : Text)
  | challengeUnsent (client fault : Text)
  /-- The page with status 400 could not be sent to a client. -/
  | refusalUnsent (client fault : Text)
  | measured (metric : Metric)
  | requestAllowed (path : Path) (method target : Text)
  | answerUnsent (fault : Text)
  | headUnreadable
  /-- The page with status 400 could not be sent after an unreadable head. -/
  | pageUnsent (fault : Text)
  | readFailed (fault : Text)
  | clientLeft
  | connectionDropped (reason : Rejection)
  deriving DecidableEq

/-- The word for a level. -/
def Level.name : Level → Text
  | .error => "ERROR".toList
  | .warn => "WARN".toList
  | .info => "INFO".toList
  | .debug => "DEBUG".toList

/-- A measurement in one line. -/
def Metric.render : Metric → Text
  | .authenticated path => "authenticated ".toList ++ path.name
  | .challenge => "challenge".toList
  | .rejected reason => "rejected ".toList ++ reason.name

theorem Metric.render_authenticated (path : Path) :
    render (.authenticated path) = "authenticated ".toList ++ path.name := rfl

theorem Metric.render_challenge : render .challenge = "challenge".toList := rfl

theorem Metric.render_rejected (reason : Rejection) :
    render (.rejected reason) = "rejected ".toList ++ reason.name := rfl

namespace Event

/-- The parts of the line that reports an event. -/
structure Line where
  level : Level
  message : String
  fields : List (String × Text)

/-- The line that reports a measurement. -/
def ofMetric : Metric → Line
  | .authenticated path => ⟨.debug, "client authenticated", [("path", path.name)]⟩
  | .challenge => ⟨.debug, "digest challenge issued", []⟩
  | .rejected reason => ⟨.warn, "client rejected", [("kind", reason.name)]⟩

/-- The line that reports an event. -/
def line : Event → Line
  | .accountLoaded name port =>
      ⟨.debug, "loaded user", [("user", name), ("port", decimal port.toNat)]⟩
  | .keyExpired key => ⟨.debug, "authenticated entry expired", [("key", key)]⟩
  | .keysPurged count =>
      ⟨.debug, "purged expired authenticated clients", [("removed", decimal count)]⟩
  | .clientCached client => ⟨.debug, "client in auth cache", [("client", client)]⟩
  | .clientAllowed client => ⟨.debug, "client in allowlist", [("client", client)]⟩
  | .clientAccepted client user =>
      ⟨.info, "client authenticated", [("client", client), ("user", user)]⟩
  | .clientRefused client reason =>
      ⟨.warn, "authentication failed", [("client", client), ("reason", reason.message)]⟩
  | .clientViolated client violation =>
      ⟨.warn, "bad authorization request",
        [("client", client), ("violation", violation.message)]⟩
  | .challengeSent client nonce =>
      ⟨.debug, "challenge issued", [("client", client), ("nonce", nonce)]⟩
  | .challengeUnsent client fault =>
      ⟨.error, "failed to send challenge", [("client", client), ("error", fault)]⟩
  | .refusalUnsent client fault =>
      ⟨.error, "failed to send 400 response", [("client", client), ("error", fault)]⟩
  | .measured metric => ofMetric metric
  | .requestAllowed path method target =>
      ⟨.debug, "request allowed", [("path", path.name), ("method", method), ("uri", target)]⟩
  | .answerUnsent fault => ⟨.warn, "write error", [("e", fault)]⟩
  | .headUnreadable => ⟨.warn, "unparsable request head", []⟩
  | .pageUnsent fault => ⟨.debug, "failed to send 400 response", [("e", fault)]⟩
  | .readFailed fault => ⟨.warn, "read error", [("e", fault)]⟩
  | .clientLeft => ⟨.debug, "client closed connection", []⟩
  | .connectionDropped reason => ⟨.debug, "closing connection", [("kind", reason.name)]⟩

/-- Level, message and fields with single spaces between them. -/
def render (e : Event) : Text :=
  let fields := e.line.fields.map fun (name, value) => ' ' :: name.toList ++ '=' :: value
  e.line.level.name ++ ' ' :: e.line.message.toList ++ fields.flatten

/-- The measurement that an event reports. -/
def metric? : Event → Option Metric
  | .measured metric => some metric
  | _ => none

/-- The measurements among events, in order. -/
def metrics (events : List Event) : List Metric := events.filterMap metric?

@[simp] theorem metrics_nil : metrics [] = [] := rfl

@[simp] theorem metrics_append (a b : List Event) : metrics (a ++ b) = metrics a ++ metrics b :=
  List.filterMap_append

end Event

end ProxyAuth
