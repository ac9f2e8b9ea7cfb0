import Mathlib.Tactic
import ProxyAuth.Nonce
import ProxyAuth.Proofs.Text.Numeral

/-!
# The spelling of nonces

A nonce that counts as fresh is a numeral, so the characters of other texts do not occur in it.  A
nonce that was issued is read back as the time of its issue.

* `decode?_eq_some_iff`: what is read as a time, and as which one;
* `not_mem_of_fresh`: the characters of a fresh nonce;
* `decode?_issue`, `length_issue_le`: the nonce of a time that fits a word.
-/

namespace ProxyAuth.Nonce

open Text

theorem decode?_eq_some_iff {nonce : Text} {v : Int} :
    decode? nonce = some v ↔ IsSigned 16 nonce v ∧ -wordHalf ≤ v ∧ v < wordHalf := by
  rw [decode?, Option.filter_eq_some_iff, signedValue?_eq_some_iff (by decide), Bool.and_eq_true,
    decide_eq_true_eq, decide_eq_true_eq]

/-- A fresh nonce consists of digits and perhaps a sign. -/
theorem not_mem_of_fresh {maxAge : Duration} {now : WallTime} {nonce : Text}
    (h : freshness maxAge now nonce = .fresh) {c : Char} (hvalue : hexValue? c = none)
    (hplus : c ≠ '+') (hminus : c ≠ '-') : c ∉ nonce := by
  cases hdecode : decode? nonce with
  | none =>
    rw [freshness, hdecode] at h
    cases h
  | some v =>
    exact (decode?_eq_some_iff.mp hdecode).1.not_mem (by decide) hvalue hplus hminus

/-! ### Nonces that were issued -/

theorem isSigned_issue (time : WallTime) : IsSigned 16 (issue time) time.unixSeconds :=
  .unsigned (.bare (isNumeral_hexadecimal time.unixSeconds))

theorem decode?_issue (time : WallTime) :
    decode? (issue time) =
      if (time.unixSeconds : Int) < wordHalf then some (time.unixSeconds : Int) else none := by
  have hlow : -wordHalf ≤ (time.unixSeconds : Int) := by
    have : (0 : Int) ≤ wordHalf := by decide
    omega
  rw [decode?, (signedValue?_eq_some_iff (by decide)).mpr (isSigned_issue time), Option.filter_some]
  simp [hlow]

theorem unixSeconds_lt_of_fresh {maxAge : Duration} {now time : WallTime}
    (h : freshness maxAge now (issue time) = .fresh) : (time.unixSeconds : Int) < wordHalf := by
  by_contra hge
  rw [freshness, decode?_issue, if_neg hge] at h
  cases h

/-- The nonce of a time that fits a word has at most sixteen digits. -/
theorem length_issue_le {time : WallTime} (h : (time.unixSeconds : Int) < wordHalf) :
    (issue time).length ≤ 16 := by
  rw [issue, hexadecimal, Nat.length_toDigits_le_iff (by decide) (by decide)]
  have : wordHalf ≤ (16 : Int) ^ 16 := by decide
  omega

end ProxyAuth.Nonce
