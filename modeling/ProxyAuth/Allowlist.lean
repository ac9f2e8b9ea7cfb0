import ProxyAuth.Address.Parser
import ProxyAuth.SetupFault
import ProxyAuth.Subnet
import ProxyAuth.Text.Blank

/-!
# Allowlists

Clients in an allowlist need no account.  The list is written as entries between commas, each an
address or an address, a slash and a number of leading bits; blanks around an entry do not count.
The first bad entry refuses the whole list.
-/

namespace ProxyAuth

open Text

/-- Subnets in the order of their entries. -/
abbrev Allowlist := List Subnet

namespace Allowlist

/-- The subnet of an entry without blanks around it. -/
def parseTrimmed (entry : Text) : Except SetupFault Subnet :=
  match entry.splitOn '/' with
  | [address] =>
      match Address.parse? address with
      | some a => .ok (.single a)
      | none => .error (.badAddress entry)
  | [address, bits] =>
      match Address.parse? address with
      | none => .error (.badAddress entry)
      | some a =>
          match (boundedValue? 255 bits).bind (Subnet.around? a) with
          | some subnet => .ok subnet
          | none => .error (.badLength entry a.canonical.width)
  | _ => .error (.badAddress entry)

/-- The subnet of an entry. -/
def parseEntry (entry : Text) : Except SetupFault Subnet := parseTrimmed (trim entry)

/-- The subnets of a list of entries; the empty text is the empty list. -/
def parse (s : Text) : Except SetupFault Allowlist :=
  if s = [] then .ok [] else (s.splitOn ',').mapM parseEntry

/-- Whether some subnet contains the address. -/
def admits (list : Allowlist) (a : Address) : Bool := list.any (·.contains a)

end Allowlist

end ProxyAuth
