import ProxyAuth.Text

/-!
# Decisions

What the gate decides about one request, and where that leaves the connection.
-/

namespace ProxyAuth

/-- How a client got through. -/
inductive Path
  /-- No authentication is set up. -/
  | open
  /-- Authenticated recently. -/
  | cached
  | allowlist
  | digest
  deriving DecidableEq

/-- Why a connection has to end. -/
inductive Rejection
  /-- The header is none that a challenge could mend. -/
  | protocol
  /-- The response could not be written. -/
  | internal
  deriving DecidableEq

/-- The decision on a request. -/
inductive Decision
  | authenticated (path : Path)
  | challengeIssued
  | rejected (reason : Rejection)
  deriving DecidableEq

/-- Where a connection stands. -/
inductive Standing
  | notChecked
  | authenticated
  | challengeIssued
  | rejected
  deriving DecidableEq

/-- The word for a path. -/
def Path.name : Path → Text
  | .open => "open".toList
  | .cached => "cached".toList
  | .allowlist => "allowlist".toList
  | .digest => "digest".toList

/-- The word for a reason to reject. -/
def Rejection.name : Rejection → Text
  | .protocol => "protocol".toList
  | .internal => "internal".toList

namespace Decision

/-- Whether the request may go on. -/
def isAuthenticated : Decision → Bool
  | .authenticated _ => true
  | _ => false

/-- Whether the connection has to be closed. -/
def closes : Decision → Bool
  | .rejected _ => true
  | _ => false

/-- Where the decision leaves the connection. -/
def standing : Decision → Standing
  | .authenticated _ => .authenticated
  | .challengeIssued => .challengeIssued
  | .rejected _ => .rejected

end Decision

/-- Where a connection stands before any decision. -/
def Standing.initial : Standing := .notChecked

end ProxyAuth
