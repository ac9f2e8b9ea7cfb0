import ProxyAuth.Text.Numeral
import ProxyAuth.Time

/-!
# Nonces

A nonce is the time of its issue in whole seconds, in hexadecimal.  Nothing is stored: the age of a
nonce is read off the text that a client sends back.  A nonce from the future counts as fresh, one
dated before 1970 as stale.
-/

namespace ProxyAuth.Nonce

open Text

/-- How old a nonce is, as far as it matters. -/
inductive Freshness
  | fresh
  /-- Issued longer ago than allowed. -/
  | stale
  /-- Not a time at all. -/
  | invalid
  deriving DecidableEq

/-- How long a nonce stays fresh unless set otherwise. -/
def defaultMaxAge : Duration := .ofSeconds 60

/-- The nonce issued at a time. -/
def issue (now : WallTime) : Text := hexadecimal now.unixSeconds

/-- Half the number of words of 64 bits. -/
def wordHalf : Int := 0x8000000000000000

/-- The seconds that a nonce spells, if they fit a signed word of 64 bits. -/
def decode? (nonce : Text) : Option Int :=
  (signedValue? 16 nonce).filter fun v => -wordHalf ≤ v && v < wordHalf

/-- The freshness of a nonce at a time. -/
def freshness (maxAge : Duration) (now : WallTime) (nonce : Text) : Freshness :=
  match decode? nonce with
  | none => .invalid
  | some seconds =>
      if seconds < 0 then .stale
      else if maxAge.nanoseconds < now.nanoseconds - seconds * nanosecondsPerSecond then .stale
      else .fresh

end ProxyAuth.Nonce
