import ProxyAuth.Client
import ProxyAuth.Gate

/-!
# Transcripts

A transcript records what is written on one connection, for trying a gate out without a network.
A broken connection takes no page.  On a transcript a client can fetch a challenge and go through a
whole handshake.
-/

namespace ProxyAuth

open Text

/-- A connection and the pages written on it so far, the oldest first. -/
structure Transcript where
  link : Link
  /-- Whether every write fails. -/
  broken : Bool
  pages : List Text
  deriving DecidableEq

namespace Transcript

/-- A connection on which nothing has been written. -/
def start (link : Link) (broken : Bool) : Transcript := ⟨link, broken, []⟩

/-- How writing on the connection fails, if it does. -/
def writeFault (t : Transcript) : Option Text :=
  if t.broken then some "mock connection closed".toList else none

/-- The page written last. -/
def lastPage? (t : Transcript) : Option Text := t.pages.getLast?

/-- The status of the page written last: the number behind its first space. -/
def status? (t : Transcript) : Option Nat := do
  let word ← ((← t.lastPage?).splitOn ' ')[1]?
  boundedValue? 65535 word

/-- The challenge of the page written last. -/
def challenge? (t : Transcript) : Option Challenge := t.lastPage?.bind Challenge.ofResponse?

/-- Why an exchange ends without a decision: the gate gave up on the clock, or the client has no
answer. -/
inductive Fault
  | clock (f : ClockFault)
  | answer (f : Client.Fault)
  deriving DecidableEq

/-- What comes of one or more requests: the transcript and the known clients afterwards, the last
decision, and all events. -/
structure Exchange where
  transcript : Transcript
  known : ExpiringSet
  outcome : Except Fault Decision
  events : List Event

/-- Send a request to the gate. -/
def send (policy : Policy) (now : Clocks) (t : Transcript) (known : ExpiringSet)
    (request : Request) : Exchange :=
  let reply := Gate.authenticate policy known now t.link request t.writeFault
  ⟨{ t with pages := t.pages ++ reply.written }, reply.known,
    reply.outcome.mapError .clock, reply.events⟩

/-- Send a request without its header, for the sake of the challenge. -/
def sendBare (policy : Policy) (now : Clocks) (t : Transcript) (known : ExpiringSet)
    (request : Request) : Exchange :=
  send policy now t known { request with authorization := none }

/-- The challenge that a client fetches: it sends a request bare and reads the page written last. -/
def fetch? (policy : Policy) (now : Clocks) (t : Transcript) (known : ExpiringSet)
    (request : Request) : Option Challenge :=
  (sendBare policy now t known request).transcript.challenge?

/-- A whole handshake: send the request bare, then send it with the answer to the challenge on the
transcript.  Where there is no challenge the request is sent as it is, and a client without an
answer ends the handshake. -/
def handshake (policy : Policy) (now : Clocks) (t : Transcript) (known : ExpiringSet)
    (request : Request) (client : Client) (clientNonce : Text) : Exchange :=
  let bare := sendBare policy now t known request
  let again (r : Request) : Exchange :=
    let full := send policy now bare.transcript bare.known r
    { full with events := bare.events ++ full.events }
  match bare.transcript.challenge? with
  | none => again request
  | some challenge =>
      match (client.answer challenge request.method request.target clientNonce).1 with
      | .error f => { bare with outcome := .error (.answer f) }
      | .ok header => again { request with authorization := some header }

end Transcript

end ProxyAuth
