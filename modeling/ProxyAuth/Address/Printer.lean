import ProxyAuth.Address
import ProxyAuth.Text.Numeral

/-!
# Printing addresses

A short address is written as four decimal octets.  A long one is written as eight groups in lower
case without leading zeros, where the first of the longest runs of at least two zero groups becomes
`::`; a wrapped short address is written as such behind `::ffff:`.
-/

namespace ProxyAuth.Address

open Text

/-- Four decimal octets. -/
def renderShort (bits : BitVec 32) : Text :=
  List.intercalate ['.'] ((octets bits).map decimal)

/-- Groups between colons. -/
def renderGroups (gs : List Nat) : Text := joined (gs.map hexadecimal)

/-- The number of zeros at the front. -/
def leadingZeros (gs : List Nat) : Nat := (gs.takeWhile (· = 0)).length

/-- Start and length of the first of the longest runs of zeros, the list starting at `i`. -/
def longestRun (i : Nat) : List Nat → Nat × Nat
  | [] => (i, 0)
  | g :: gs =>
      let here := leadingZeros (g :: gs)
      let later := longestRun (i + 1) gs
      if later.2 ≤ here then (i, here) else later

/-- The eight groups, with one run of zeros compressed. -/
def renderLong (bits : BitVec 128) : Text :=
  let gs := groups bits
  let (start, length) := longestRun 0 gs
  if 2 ≤ length then
    renderGroups (gs.take start) ++ "::".toList ++ renderGroups (gs.drop (start + length))
  else renderGroups gs

/-- The text of an address. -/
def render : Address → Text
  | .v4 bits => renderShort bits
  | .v6 bits =>
      if isMapped bits then "::ffff:".toList ++ renderShort (unwrap bits) else renderLong bits

end ProxyAuth.Address
