import ProxyAuth.Header

/-!
# Printing headers

The scheme, a space, and the parameters in order, separated by commas.  A value is written as it
is if it is a token; six parameters of digest authentication are always quoted.
-/

namespace ProxyAuth.Header

open Text

/-- The parameters that digest authentication always sends quoted. -/
def alwaysQuoted : List Text :=
  ["cnonce".toList, "nonce".toList, "realm".toList, "response".toList, "uri".toList,
    "username".toList]

/-- A quote or backslash is written behind a backslash. -/
def escapedChar (c : Char) : Text := if c = '"' ∨ c = '\\' then ['\\', c] else [c]

/-- A value as a quoted string. -/
def quotedString (value : Text) : Text := '"' :: value.flatMap escapedChar ++ ['"']

/-- A parameter, in a header of digest authentication or of another scheme. -/
def renderParameter (digest : Bool) (name value : Text) : Text :=
  let spelled :=
    if digest && alwaysQuoted.contains name || !isToken value then quotedString value else value
  name ++ '=' :: spelled

/-- The text of a header. -/
def render (h : Header) : Text :=
  if h.parameters = [] then h.scheme
  else
    let parameters := h.parameters.map fun (name, value) => renderParameter h.isDigest name value
    h.scheme ++ ' ' :: List.intercalate ", ".toList parameters

end ProxyAuth.Header
