import ProxyAuth.Address.Printer

/-!
# Subnets

A subnet is a canonical base address and the number of leading bits that its members share; the
bits of the base behind those are zero.  An address of one family is never in a subnet of the
other.  Masking shifts by the bits that are not kept, so there is no mask of more bits than an
address has: whoever masks must have seen to it that the family is wide enough.
-/

namespace ProxyAuth

open Text

/-- A base address and the number of leading bits shared with it. -/
structure Subnet where
  base : Address
  length : Nat
  deriving DecidableEq

namespace Subnet

/-- The first `n` bits of a word, the others zero; a word has no more bits than its width. -/
def keepFirst? {w : Nat} (n : Nat) (bits : BitVec w) : Option (BitVec w) :=
  if n ≤ w then some (bits &&& BitVec.allOnes w <<< (w - n)) else none

/-- The first `n` bits of an address, the others zero. -/
def mask? (n : Nat) : Address → Option Address
  | .v4 bits => (keepFirst? n bits).map .v4
  | .v6 bits => (keepFirst? n bits).map .v6

/-- The subnet of given length around an address, unless the family is too narrow. -/
def around? (a : Address) (length : Nat) : Option Subnet :=
  let a := a.canonical
  if a.width < length then none else (mask? length a).map fun base => ⟨base, length⟩

/-- The subnet of a single address. -/
def single (a : Address) : Subnet := ⟨a.canonical, a.canonical.width⟩

/-- Whether an address is in the subnet; only one of the same family is masked. -/
def contains (s : Subnet) (a : Address) : Bool :=
  match s.base, a.canonical with
  | .v4 _, .v4 bits => mask? s.length (.v4 bits) = some s.base
  | .v6 _, .v6 bits => mask? s.length (.v6 bits) = some s.base
  | _, _ => false

/-- Base and length with a slash between. -/
def render (s : Subnet) : Text := s.base.render ++ '/' :: decimal s.length

end Subnet

end ProxyAuth
