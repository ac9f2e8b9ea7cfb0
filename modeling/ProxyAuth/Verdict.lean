import ProxyAuth.Header

/-!
# Verdicts

The outcome of checking one authorization header.  A refusal lets the client try again with a
fresh challenge; a violation does not.  The wordings go to the log only.
-/

namespace ProxyAuth

open Text

/-- Why well-formed credentials are refused. -/
inductive Refusal
  | staleNonce
  | unknownAccount (name : Text)
  | wrongPort (name : Text) (localPort : UInt16)
  | wrongResponse (name : Text)
  deriving DecidableEq

/-- How a header fails to be digest authentication as offered. -/
inductive Violation
  | malformedHeader (fault : Header.Fault)
  | unsupportedScheme (scheme : Text)
  | noParameters
  | badNonce (nonce : Text)
  | unsupportedProtection (protection : Text)
  | missingResponse
  deriving DecidableEq

/-- The outcome of checking a header. -/
inductive Verdict
  | accepted (name : Text)
  | refused (reason : Refusal)
  | violated (violation : Violation)
  deriving DecidableEq

/-- The wording of a refusal. -/
def Refusal.message : Refusal → Text
  | .staleNonce => "nonce expired".toList
  | .unknownAccount name => "no such user: ".toList ++ name
  | .wrongPort name localPort =>
      "user ".toList ++ name ++ " not allowed on port ".toList ++ decimal localPort.toNat
  | .wrongResponse name =>
      "digest not match for ".toList ++ name ++ ", maybe password wrong".toList

/-- The wording of a violation. -/
def Violation.message : Violation → Text
  | .malformedHeader fault =>
      "malformed Proxy-Authorization header: ".toList ++ fault.message
  | .unsupportedScheme scheme => "unsupported authenticate method: ".toList ++ scheme
  | .noParameters => "empty authorization list".toList
  | .badNonce nonce => "nonce not a timestamp: ".toList ++ quoted nonce
  | .unsupportedProtection protection => "qop wrong: ".toList ++ quoted protection
  | .missingResponse => "no request-digest".toList

end ProxyAuth
