import ProxyAuth.Challenge
import ProxyAuth.Digest
import ProxyAuth.Header.Printer

/-!
# Clients

A client answers challenges with its name and secret.  It numbers its answers: the count goes up by
one with every call, also one that is refused because a field does not fit into a header.  The count
is a word of 32 bits whose addition is checked: behind the largest one there is no further answer.
-/

namespace ProxyAuth

open Text

/-- A user agent with its credentials and the number of answers given. -/
structure Client where
  name : Text
  secret : Text
  count : UInt32
  deriving DecidableEq

namespace Client

/-- A client that has given no answer. -/
def new (name secret : Text) : Client := ⟨name, secret, 0⟩

/-- Why a call gets no answer. -/
inductive Fault
  /-- The count cannot go up. -/
  | countOverflow
  /-- A field does not fit into a header. -/
  | header (f : Header.Fault)
  deriving DecidableEq

/-- The largest count. -/
def maxCount : UInt32 := 0xffffffff

/-- The client after one more answer. -/
def next (c : Client) : Client := { c with count := c.count + 1 }

/-- The count as it is sent. -/
def countText (c : Client) : Text := paddedHexadecimal 8 c.count.toNat

/-- The parameters of the answer to a challenge, in the order in which they are added. -/
def parameters (c : Client) (challenge : Challenge) (method target clientNonce : Text) :
    List (Text × Text) :=
  let key := Digest.key c.name challenge.realm c.secret
  let fields : Digest.Fields := ⟨challenge.nonce, c.countText, clientNonce, method, target⟩
  [("username".toList, c.name), ("realm".toList, challenge.realm),
    ("nonce".toList, challenge.nonce), ("uri".toList, target),
    ("qop".toList, Digest.protection), ("nc".toList, c.countText),
    ("cnonce".toList, clientNonce), ("response".toList, Digest.response key fields)]

/-- Add parameters one after the other. -/
def addAll (h : Header) (parameters : List (Text × Text)) : Except Header.Fault Header :=
  parameters.foldlM (fun h (name, value) => (h.add name value).result) h

/-- The header that answers a challenge with the current count. -/
def header (c : Client) (challenge : Challenge) (method target clientNonce : Text) :
    Except Header.Fault Header :=
  (Header.ofScheme "Digest".toList).bind
    (addAll · (c.parameters challenge method target clientNonce))

/-- Answer a challenge: count up, then write the header value. -/
def answer (c : Client) (challenge : Challenge) (method target clientNonce : Text) :
    Except Fault Text × Client :=
  if c.count = maxCount then (.error .countOverflow, c)
  else
    (((c.next.header challenge method target clientNonce).map Header.render).mapError .header,
      c.next)

end Client

end ProxyAuth
