import ProxyAuth.Address
import ProxyAuth.Text.Numeral
import ProxyAuth.Text.Split

/-!
# Reading addresses

A short address is four decimal octets of at most three digits without leading zeros.  A long one
is eight groups of one to four hexadecimal digits between colons, where `::` may stand once for one
or more zero groups and the last two groups may be written as a short address.  There are no zones
and no brackets.
-/

namespace ProxyAuth.Address

open Text

/-- An octet. -/
def octet? (s : Text) : Option Nat :=
  if 3 < s.length ∨ (1 < s.length ∧ s.head? = some '0') then none
  else (value? 10 s).filter (· < 256)

/-- A short address. -/
def parseShort? (s : Text) : Option (BitVec 32) :=
  match (s.splitOn '.').mapM octet? with
  | some [a, b, c, d] => some (.ofNat 32 (ofParts 256 [a, b, c, d]))
  | _ => none

/-- A group. -/
def group? (s : Text) : Option Nat := if 4 < s.length then none else value? 16 s

/-- The two groups of a short address. -/
def groupsOfShort (bits : BitVec 32) : List Nat := parts 65536 2 bits.toNat

/-- Groups between colons, the last two possibly written as a short address. -/
def trailingGroups? : List Text → Option (List Nat)
  | [] => some []
  | [piece] =>
      match parseShort? piece with
      | some bits => some (groupsOfShort bits)
      | none => (group? piece).map ([·])
  | piece :: pieces => do
      let g ← group? piece
      let gs ← trailingGroups? pieces
      some (g :: gs)

/-- The pieces between colons; the empty text has none. -/
def pieces (s : Text) : List Text := if s = [] then [] else s.splitOn ':'

/-- The eight groups of a long address. -/
def parseGroups? (s : Text) : Option (List Nat) :=
  match splitFirst? "::".toList s with
  | none => (trailingGroups? (pieces s)).filter (·.length = 8)
  | some (front, back) => do
      let front ← (pieces front).mapM group?
      let back ← trailingGroups? (pieces back)
      if front.length + back.length ≤ 7 then
        some (front ++ List.replicate (8 - front.length - back.length) 0 ++ back)
      else none

/-- A long address. -/
def parseLong? (s : Text) : Option (BitVec 128) :=
  (parseGroups? s).map fun gs => .ofNat 128 (ofParts 65536 gs)

/-- An address of either family. -/
def parse? (s : Text) : Option Address :=
  match parseShort? s with
  | some bits => some (.v4 bits)
  | none => (parseLong? s).map .v6

end ProxyAuth.Address
