import ProxyAuth.Endpoint
import ProxyAuth.ExpiringSet
import ProxyAuth.Page
import ProxyAuth.Policy
import ProxyAuth.Verification

/-!
# The gate

The gate decides about one request.  The first rule that applies counts: no authentication is
required; the client is known from before; its address is in the allowlist; its header is accepted.
Every other request is challenged, or rejected if its header is none that a challenge could mend.

A client is its canonical address.  The gate writes at most one page, and what it did is all in the
`Gate.Reply`: the known clients afterwards, the decision, the page and the events in order.
-/

namespace ProxyAuth

open Text

/-- A request, as far as the gate looks at it. -/
structure Request where
  method : Text
  target : Text
  /-- The authorization header, where one was sent. -/
  authorization : Option Text
  deriving DecidableEq

/-- The connection on which a request arrives: the other end, and the port of the proxy. -/
structure Link where
  remote : Endpoint
  localPort : UInt16
  deriving DecidableEq

/-- The address of the client; its port does not matter. -/
def Link.client (link : Link) : Address := link.remote.address

namespace Gate

/-- Everything that comes of one request. -/
structure Reply where
  /-- The known clients afterwards. -/
  known : ExpiringSet
  /-- The decision, unless the clock could not show a deadline. -/
  outcome : Except ClockFault Decision
  /-- The pages written. -/
  written : List Text
  events : List Event

/-- The header of a request, if it holds more than blanks. -/
def header? (request : Request) : Option Text := request.authorization.filter (trim · ≠ [])

/-- Let a client through. -/
def accept (known : ExpiringSet) (path : Path) (events : List Event) : Reply :=
  ⟨known, .ok (.authenticated path), [], events ++ [.measured (.authenticated path)]⟩

/-- End a connection. -/
def reject (known : ExpiringSet) (reason : Rejection) (written : List Text)
    (events : List Event) : Reply :=
  ⟨known, .ok (.rejected reason), written, events ++ [.measured (.rejected reason)]⟩

/-- Send a fresh challenge; writing fails with the text `writeFault`, if there is one. -/
def issueChallenge (known : ExpiringSet) (now : WallTime) (client : Text)
    (writeFault : Option Text) (events : List Event) : Reply :=
  let nonce := Nonce.issue now
  match writeFault with
  | none =>
      ⟨known, .ok .challengeIssued, [Page.challenge Digest.realm nonce],
        events ++ [.challengeSent client nonce, .measured .challenge]⟩
  | some fault => reject known .internal [] (events ++ [.challengeUnsent client fault])

/-- Send the page with status 400. -/
def refuse (known : ExpiringSet) (client : Text) (writeFault : Option Text)
    (events : List Event) : Reply :=
  match writeFault with
  | none => reject known .protocol [Page.badRequest] events
  | some fault => reject known .internal [] (events ++ [.refusalUnsent client fault])

/-- Remember a client whose header is accepted and let it through. -/
def remember (known : ExpiringSet) (now : Instant) (client user : Text) (events : List Event) :
    Reply :=
  match known.add now client with
  | .error fault => ⟨known, .error fault, [], events⟩
  | .ok known => accept known .digest (events ++ [.clientAccepted client user])

/-- Decide about a client that is neither known nor in the allowlist. -/
def checkHeader (policy : Policy) (known : ExpiringSet) (now : Clocks) (link : Link)
    (request : Request) (writeFault : Option Text) (client : Text) (events : List Event) :
    Reply :=
  match header? request with
  | none => issueChallenge known now.wall client writeFault events
  | some header =>
      let occasion : Occasion := ⟨request.method, request.target, link.localPort⟩
      match Verdict.ofText policy.accounts policy.nonceMaxAge now.wall header occasion with
      | .accepted user => remember known now.monotonic client user events
      | .refused reason =>
          issueChallenge known now.wall client writeFault
            (events ++ [.clientRefused client reason])
      | .violated violation =>
          refuse known client writeFault (events ++ [.clientViolated client violation])

/-- The event of a look-up that met an expired client. -/
def lookupEvents (client : Text) : ExpiringSet.Lookup → List Event
  | .expired => [.keyExpired client]
  | _ => []

/-- The event of a purge, unless it removed nothing. -/
def purgeEvents (purged : ExpiringSet.Purged) : List Event :=
  if purged.removed = 0 then [] else [.keysPurged purged.removed]

/-- Decide about a request. -/
def authenticate (policy : Policy) (known : ExpiringSet) (now : Clocks) (link : Link)
    (request : Request) (writeFault : Option Text) : Reply :=
  if !policy.required then accept known .open []
  else
    let address := link.client.canonical
    let client := address.render
    let found := known.lookup now.monotonic client
    let remaining := known.afterLookup now.monotonic client
    let events := lookupEvents client found
    if found = .live then accept remaining .cached (events ++ [.clientCached client])
    else if policy.allowlist.admits address then
      accept remaining .allowlist (events ++ [.clientAllowed client])
    else checkHeader policy remaining now link request writeFault client events

end Gate

end ProxyAuth
