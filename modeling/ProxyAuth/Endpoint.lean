import ProxyAuth.Address.Parser

/-!
# Endpoints

An endpoint is an address with a port, written `address:port` for the short family and
`[address]:port` for the long one, where a zone behind a percent sign may precede the bracket.
-/

namespace ProxyAuth

open Text

/-- One end of a connection. -/
structure Endpoint where
  address : Address
  port : UInt16
  deriving DecidableEq

namespace Endpoint

/-- A port number. -/
def port? (s : Text) : Option UInt16 := ((value? 10 s).filter (· < 65536)).map .ofNat

/-- Read an endpoint. -/
def parse? : Text → Option Endpoint
  | '[' :: rest => do
      let (inside, port) ← splitFirst? "]:".toList rest
      let (address, _zone) := (splitFirst? ['%'] inside).getD (inside, [])
      some ⟨.v6 (← Address.parseLong? address), ← port? port⟩
  | s => do
      let (address, port) ← splitFirst? [':'] s
      some ⟨.v4 (← Address.parseShort? address), ← port? port⟩

end Endpoint

end ProxyAuth
