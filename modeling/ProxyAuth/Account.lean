import ProxyAuth.Digest
import ProxyAuth.SetupFault

/-!
# Accounts

An account is a name, a secret and the local port on which it may be used; port 0 admits every
port.  An entry spells it `name:secret[:port]`, taken literally: nothing is trimmed, and an empty
port field admits every port.
-/

namespace ProxyAuth

open Text

/-- A user of the proxy. -/
structure Account where
  name : Text
  secret : Text
  port : UInt16
  deriving DecidableEq

namespace Account

/-- Whether the account may be used on a connection to `localPort`. -/
def allowsPort (a : Account) (localPort : UInt16) : Bool := a.port = 0 || a.port = localPort

/-- The digest key of the account. -/
def key (a : Account) : Text := Digest.key a.name Digest.realm a.secret

/-- The port that a port field spells. -/
def port? (field : Text) : Option UInt16 :=
  if field = [] then some 0
  else ((boundedValue? 65535 field).filter (0 < ·)).map .ofNat

/-- The account of an entry; the empty entry has none. -/
def parse (entry : Text) : Except SetupFault (Option Account) :=
  if entry = [] then .ok none
  else
    let build (name secret port : Text) : Except SetupFault (Option Account) :=
      if name = [] ∨ secret = [] then .error (.emptyField entry)
      else match port? port with
        | some port => .ok (some ⟨name, secret, port⟩)
        | none => .error (.badPort entry)
    match entry.splitOn ':' with
    | [name, secret] => build name secret []
    | [name, secret, port] => build name secret port
    | _ => .error (.malformedAccount entry)

/-- The entry that spells an account. -/
def render (a : Account) : Text :=
  a.name ++ ':' :: a.secret ++ (if a.port = 0 then [] else ':' :: decimal a.port.toNat)

end Account

end ProxyAuth
