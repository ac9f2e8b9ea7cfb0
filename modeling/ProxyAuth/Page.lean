import ProxyAuth.Digest
import ProxyAuth.Text.Numeral

/-!
# Response pages

The complete responses that are sent: the challenge with status 407, the page with status 400 and
the empty success with status 200.  No page but the challenge depends on anything, and the
challenge on its realm and nonce only.
-/

namespace ProxyAuth.Page

open Text

/-- Lines of a response head, each ended by CR LF. -/
def headLines (lines : List Text) : Text := lines.flatMap (· ++ "\r\n".toList)

/-- The document that shows a heading. -/
def document (heading : Text) : Text :=
  "<!DOCTYPE html>\n<html>\n\t<head> <title>warden proxy</title> </head>\n\t<body>\n\t\t<h1>".toList
    ++ heading ++
    "</h1>\n\t\t<hr />\n\t\tGenerated by <i>warden</i>\n\t</body>\n</html>\n".toList

/-- A response of a head and a document, whose length the head states last. -/
def withDocument (lines : List Text) (body : Text) : Text :=
  headLines (lines ++ ["Content-Type: text/html".toList, "Cache-Control: no-cache".toList,
    "Content-Length: ".toList ++ decimal (byteLength body)]) ++ "\r\n".toList ++ body

/-- The header line that carries a challenge. -/
def challengeLine (realm nonce : Text) : Text :=
  "Proxy-Authenticate: Digest realm=\"".toList ++ realm ++ "\", nonce=\"".toList ++ nonce ++
    "\", qop=\"".toList ++ Digest.protection ++ ['"']

/-- The challenge to authenticate in a realm. -/
def challenge (realm nonce : Text) : Text :=
  withDocument ["HTTP/1.1 407 Proxy Authentication Required".toList, challengeLine realm nonce]
    (document "407 Proxy authentication required".toList)

/-- The page for requests that cannot be answered with a challenge. -/
def badRequest : Text :=
  withDocument ["HTTP/1.1 400 Bad Request".toList, "Connection: close".toList]
    (document "400 Bad authorization request".toList)

/-- The answer to an allowed request. -/
def success : Text := headLines ["HTTP/1.1 200 OK".toList, "Content-Length: 0".toList, []]

end ProxyAuth.Page
