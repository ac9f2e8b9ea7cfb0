import ProxyAuth.Header.Parser
import ProxyAuth.Utf8

/-!
# Challenges as a client reads them

A challenge is the realm and nonce of a digest header, with the quality of protection where one is
named.  It is looked for in the header lines of a response; of the body it matters only whether it is
a text.
-/

namespace ProxyAuth

open Text

/-- What a client needs to answer. -/
structure Challenge where
  realm : Text
  nonce : Text
  protection : Option Text
  deriving DecidableEq

namespace Response

/-- The header lines of a response as names and values, blanks around both removed.  The status
line and lines without a colon are skipped. -/
def fields (response : Text) : List (Text × Text) :=
  let head := ((splitFirst? "\r\n\r\n".toList response).map (·.1)).getD response
  ((lines head).drop 1).filterMap fun line =>
    (splitFirst? [':'] line).map fun (name, value) => (trim name, trim value)

/-- The value of the first header line of a name. -/
def get? (response name : Text) : Option Text :=
  ((fields response).find? fun field => sameIgnoringCase field.1 name).map (·.2)

end Response

namespace Challenge

/-- The challenge of a header value: digest authentication with both realm and nonce. -/
def ofHeaderValue? (value : Text) : Option Challenge :=
  match Header.parse value with
  | .error _ => none
  | .ok header =>
      if header.isDigest then do
        let realm ← header.get? "realm".toList
        let nonce ← header.get? "nonce".toList
        some ⟨realm, nonce, header.get? "qop".toList⟩
      else none

/-- The first challenge among the header lines of a response. -/
def ofResponse? (response : Text) : Option Challenge :=
  (Response.fields response).findSome? fun (name, value) =>
    if sameIgnoringCase name "proxy-authenticate".toList then ofHeaderValue? value else none

/-- The first challenge in the bytes of a response. -/
def ofBytes? (response : Bytes) : Option Challenge := (Utf8.decode? response).bind ofResponse?

end Challenge

end ProxyAuth
