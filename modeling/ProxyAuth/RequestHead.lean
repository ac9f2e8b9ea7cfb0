import ProxyAuth.Gate
import ProxyAuth.Text.Split
import ProxyAuth.Utf8

/-!
# Request heads

The head of a request is a request line and header lines, each ended by CR LF, up to the first empty
line.  Only the method, the target and the authorization header are kept; a header with a blank
value counts as not sent, and of several the last counts.
-/

namespace ProxyAuth.RequestHead

open Text

/-- The header whose value the gate checks. -/
def authorizationName : Text := "proxy-authorization".toList

/-- Method and target of a request line: exactly three words, the first two not empty, the third
naming version 1 of the protocol. -/
def requestLine? (line : Text) : Option (Text × Text) :=
  match line.splitOn ' ' with
  | [method, target, version] =>
      if method ≠ [] ∧ target ≠ [] ∧ "HTTP/1.".toList.isPrefixOf version then
        some (method, target)
      else none
  | _ => none

/-- Name and trimmed value of a header line. -/
def field? (line : Text) : Option (Text × Text) :=
  (splitFirst? [':'] line).map fun (name, value) => (name, trim value)

/-- Whether a field is an authorization header that counts. -/
def isAuthorization (field : Text × Text) : Bool :=
  sameIgnoringCase field.1 authorizationName && field.2 ≠ []

/-- The value of the last authorization header that counts. -/
def authorization? (fields : List (Text × Text)) : Option Text :=
  ((fields.filter isAuthorization).getLast?).map (·.2)

/-- The request of a head that is a text. -/
def parseText? (head : Text) : Option Request :=
  match crlfPieces head with
  | [] => none
  | first :: rest => do
      let (method, target) ← requestLine? first
      let fields ← (rest.takeWhile (· ≠ [])).mapM field?
      some ⟨method, target, authorization? fields⟩

/-- The request of a head. -/
def parse? (head : Bytes) : Option Request := (Utf8.decode? head).bind parseText?

end ProxyAuth.RequestHead
