import ProxyAuth.Accounts
import ProxyAuth.Header.Parser
import ProxyAuth.Nonce
import ProxyAuth.Verdict

/-!
# Checking an authorization header

The checks run in a fixed order, so of several faults the first decides: the form of the header,
its scheme, its nonce, the account and its port, the quality of protection, and last the response
itself.
-/

namespace ProxyAuth

/-- What a digest answer is bound to besides its own fields. -/
structure Occasion where
  method : Text
  /-- The target of the request, which counts where the header names none. -/
  target : Text
  localPort : UInt16
  deriving DecidableEq

namespace Verdict

/-- The fields from which the response of a header is computed. -/
def fieldsOf (header : Header) (occasion : Occasion) : Digest.Fields :=
  { nonce := header.getD "nonce".toList
    count := header.getD "nc".toList
    clientNonce := header.getD "cnonce".toList
    method := occasion.method
    target := (header.get? "uri".toList).getD occasion.target }

/-- The verdict on the response of an account that may be used. -/
def ofResponse (account : Account) (header : Header) (occasion : Occasion) : Verdict :=
  if header.getD "qop".toList ≠ Digest.protection then
    .violated (.unsupportedProtection (header.getD "qop".toList))
  else match header.get? "response".toList with
    | none => .violated .missingResponse
    | some response =>
        let name := header.getD "username".toList
        if Digest.response account.key (fieldsOf header occasion) = response then .accepted name
        else .refused (.wrongResponse name)

/-- The verdict on a header of digest authentication with a fresh nonce. -/
def ofAccount (accounts : Accounts) (header : Header) (occasion : Occasion) : Verdict :=
  let name := header.getD "username".toList
  match accounts.get? name with
  | none => .refused (.unknownAccount name)
  | some account =>
      if !account.allowsPort occasion.localPort then .refused (.wrongPort name occasion.localPort)
      else ofResponse account header occasion

/-- The verdict on a header that has been read. -/
def ofHeader (accounts : Accounts) (maxAge : Duration) (now : WallTime) (header : Header)
    (occasion : Occasion) : Verdict :=
  if !header.isDigest then .violated (.unsupportedScheme header.scheme)
  else if header.parameters = [] then .violated .noParameters
  else
    let nonce := header.getD "nonce".toList
    match Nonce.freshness maxAge now nonce with
    | .stale => .refused .staleNonce
    | .invalid => .violated (.badNonce nonce)
    | .fresh => ofAccount accounts header occasion

/-- The verdict on the text of a header. -/
def ofText (accounts : Accounts) (maxAge : Duration) (now : WallTime) (text : Text)
    (occasion : Occasion) : Verdict :=
  match Header.parse text with
  | .error fault => .violated (.malformedHeader fault)
  | .ok header => ofHeader accounts maxAge now header occasion

end Verdict

end ProxyAuth
