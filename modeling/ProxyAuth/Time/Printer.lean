import ProxyAuth.Text.Numeral
import ProxyAuth.Time

/-!
# Printing durations

A duration is shown in the largest of the units s, ms, µs and ns that makes its whole part
non-zero, as a decimal fraction without trailing zeros; the empty duration is `0ns`.
-/

namespace ProxyAuth.Duration

open Text

/-- The decimals of a fraction behind their point, given as a number of `places` digits; trailing
zeros are left out, and the point with them if there is nothing else. -/
def fraction (places numerator : Nat) : Text :=
  let digits := (decimal numerator).leftpad places '0'
  match (digits.reverse.dropWhile (· = '0')).reverse with
  | [] => []
  | kept => '.' :: kept

/-- The duration in a unit of `length` nanoseconds, a power of ten with `places` zeros. -/
def inUnit (d : Duration) (length places : Nat) (unit : Text) : Text :=
  decimal (d.nanoseconds / length) ++ fraction places (d.nanoseconds % length) ++ unit

/-- The text of a duration. -/
def render (d : Duration) : Text :=
  if 1000000000 ≤ d.nanoseconds then d.inUnit 1000000000 9 "s".toList
  else if 1000000 ≤ d.nanoseconds then d.inUnit 1000000 6 "ms".toList
  else if 1000 ≤ d.nanoseconds then d.inUnit 1000 3 "µs".toList
  else d.inUnit 1 0 "ns".toList

end ProxyAuth.Duration
