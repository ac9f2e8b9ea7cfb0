import Mathlib.Tactic
import ProxyAuth.Allowlist
import ProxyAuth.Proofs.Address.RoundTrip
import ProxyAuth.Proofs.Subnet

/-!
# Entries of an allowlist

An entry is an address, possibly with a slash and a length behind it.  The text of an address
consists of digits, dots and colons, so neither blanks nor slashes can belong to it.  What becomes
of the entry depends on the canonical address only, not on the way in which it is written.

* `parse?_eq_none`: the characters of an address;
* `parseTrimmed_bare`, `parseTrimmed_masked`, `toOption_parseTrimmed_slash`: what becomes of an
  entry;
* `toOption_parseEntry_congr`: two ways to write an address make the same subnet, or none.
-/

namespace ProxyAuth

open Text

/-! ### The characters of an address -/

namespace Address

variable {s : Text} {c : Char}

/-- An address consists of digits, dots and colons. -/
theorem parse?_eq_none (h : c ∈ s) (hc : hexValue? c = none) (hdot : c ≠ '.')
    (hcolon : c ≠ ':') : parse? s = none := by
  rw [Option.eq_none_iff_forall_ne_some]
  intro a ha
  exact ((parse?_eq_some_iff.mp ha).eq_of_mem h hc).elim hdot hcolon

theorem not_mem_of_parse? {a : Address} (h : parse? s = some a) {c : Char}
    (hc : hexValue? c = none) (hdot : c ≠ '.') (hcolon : c ≠ ':') : c ∉ s := fun hmem => by
  rw [parse?_eq_none hmem hc hdot hcolon] at h
  cases h

theorem isTrimmed_of_parse? {a : Address} (h : parse? s = some a) : IsTrimmed s :=
  .of_forall fun c hc => by
    by_contra hblank
    rw [Bool.not_eq_false] at hblank
    exact not_mem_of_parse? h (hexValue?_of_isBlank hblank) (ne_of_isBlank hblank (by decide))
      (ne_of_isBlank hblank (by decide)) hc

theorem ne_nil_of_parse? {a : Address} (h : parse? s = some a) : s ≠ [] := by
  rintro rfl
  have hnone : parse? [] = none := by decide
  rw [hnone] at h
  cases h

theorem slash_not_mem_of_parse? {a : Address} (h : parse? s = some a) : '/' ∉ s :=
  not_mem_of_parse? h (by decide) (by decide) (by decide)

end Address

/-! ### What becomes of an entry -/

namespace Allowlist

variable {s t : Text} {a b : Address}

theorem parseTrimmed_bare (h : Address.parse? s = some a) : parseTrimmed s = .ok (.single a) := by
  rw [parseTrimmed, List.splitOn_eq_singleton (Address.slash_not_mem_of_parse? h)]
  dsimp only
  rw [h]

/-- Behind the only slash stands the length. -/
theorem parseTrimmed_masked (h : Address.parse? s = some a) {bits : Text} (hbits : '/' ∉ bits) :
    parseTrimmed (s ++ '/' :: bits) = ((boundedValue? 255 bits).bind (Subnet.around? a)).elim
      (.error (.badLength (s ++ '/' :: bits) a.canonical.width)) .ok := by
  rw [parseTrimmed, List.splitOn_append_cons_self_of_not_mem (Address.slash_not_mem_of_parse? h),
    List.splitOn_eq_singleton hbits]
  dsimp only
  rw [h]
  dsimp only
  cases (boundedValue? 255 bits).bind (Subnet.around? a) <;> rfl

/-- A second slash is one too many. -/
theorem parseTrimmed_extra (hs : '/' ∉ s) {bits : Text} (hbits : '/' ∈ bits) :
    parseTrimmed (s ++ '/' :: bits) = .error (.badAddress (s ++ '/' :: bits)) := by
  obtain ⟨front, back, rfl, hfront⟩ := List.eq_append_cons_of_mem hbits
  obtain ⟨piece, pieces, hpieces⟩ := List.exists_cons_of_ne_nil (List.splitOn_ne_nil '/' back)
  rw [parseTrimmed, List.splitOn_append_cons_self_of_not_mem hs,
    List.splitOn_append_cons_self_of_not_mem hfront, hpieces]

theorem parseTrimmed_unread (hslash : '/' ∉ s) (h : Address.parse? s = none) :
    parseTrimmed s = .error (.badAddress s) := by
  rw [parseTrimmed, List.splitOn_eq_singleton hslash]
  dsimp only
  rw [h]

/-- Without an address in front of the slash the entry is refused. -/
theorem parseTrimmed_no_address (hs : '/' ∉ s) (h : Address.parse? s = none) (bits : Text) :
    parseTrimmed (s ++ '/' :: bits) = .error (.badAddress (s ++ '/' :: bits)) := by
  by_cases hbits : '/' ∈ bits
  · exact parseTrimmed_extra hs hbits
  · rw [parseTrimmed, List.splitOn_append_cons_self_of_not_mem hs, List.splitOn_eq_singleton hbits]
    dsimp only
    rw [h]

/-- The subnet behind an address that has been read; blanks in front of the slash spoil it. -/
theorem toOption_parseTrimmed_slash (h : Address.parse? s = some a) {blanks : Text}
    (hblanks : ∀ c ∈ blanks, isBlank c = true) (bits : Text) :
    (parseTrimmed (s ++ blanks ++ '/' :: bits)).toOption =
      if blanks = [] ∧ '/' ∉ bits then (boundedValue? 255 bits).bind (Subnet.around? a)
      else none := by
  have hslash : '/' ∉ s ++ blanks := by
    rw [List.mem_append, not_or]
    exact ⟨Address.slash_not_mem_of_parse? h,
      fun hc => ne_of_isBlank (hblanks _ hc) (by decide) rfl⟩
  cases blanks with
  | nil =>
    rw [List.append_nil] at hslash ⊢
    by_cases hbits : '/' ∈ bits
    · rw [parseTrimmed_extra hslash hbits, if_neg (by simpa using hbits)]
      rfl
    · rw [parseTrimmed_masked h hbits, if_pos ⟨rfl, hbits⟩]
      cases (boundedValue? 255 bits).bind (Subnet.around? a) <;> rfl
  | cons c blanks =>
    have hblank := hblanks c List.mem_cons_self
    have hnone : Address.parse? (s ++ c :: blanks) = none :=
      Address.parse?_eq_none (List.mem_append_right _ List.mem_cons_self)
        (hexValue?_of_isBlank hblank) (ne_of_isBlank hblank (by decide))
        (ne_of_isBlank hblank (by decide))
    rw [parseTrimmed_no_address hslash hnone, if_neg (by simp)]
    rfl

/-- What may stand behind the address: blanks, and possibly a slash and whatever follows. -/
def IsTail (tail : Text) : Prop :=
  ∃ blanks, (∀ c ∈ blanks, isBlank c = true) ∧
    (tail = blanks ∨ ∃ bits, tail = blanks ++ '/' :: bits)

/-- An entry with its address in another form makes the same subnet, or is refused as well. -/
theorem toOption_parseEntry_congr (hs : Address.parse? s = some a)
    (ht : Address.parse? t = some b) (hab : a.canonical = b.canonical) {front tail : Text}
    (hfront : ∀ c ∈ front, isBlank c = true) (htail : IsTail tail) :
    (parseEntry (front ++ (s ++ tail))).toOption =
      (parseEntry (front ++ (t ++ tail))).toOption := by
  obtain ⟨blanks, hblanks, rfl | ⟨bits, rfl⟩⟩ := htail
  · have hstrim := Address.isTrimmed_of_parse? hs
    have httrim := Address.isTrimmed_of_parse? ht
    rw [parseEntry, parseEntry, trim_padded hfront hstrim hblanks,
      trim_padded hfront httrim hblanks, parseTrimmed_bare hs, parseTrimmed_bare ht,
      Subnet.single_congr hab]
  · -- Trimming stops at the address on the left and, at the latest, at the slash on the right.
    have hcut {u : Text} {d : Address} (hu : Address.parse? u = some d) :
        trim (front ++ (u ++ (blanks ++ '/' :: bits))) = u ++ blanks ++ '/' :: trimEnd bits := by
      have hstart : trimStart (u ++ blanks) = u ++ blanks :=
        trimStart_eq_self fun c hc => by
          rw [List.head?_append_of_ne_nil _ (Address.ne_nil_of_parse? hu)] at hc
          exact (Address.isTrimmed_of_parse? hu).head c hc
      rw [← List.append_assoc u, ← List.append_assoc front, trim_append_cons (by decide),
        trimStart_append hfront, hstart]
    rw [parseEntry, parseEntry, hcut hs, hcut ht, toOption_parseTrimmed_slash hs hblanks,
      toOption_parseTrimmed_slash ht hblanks, funext (Subnet.around?_congr hab)]

end Allowlist

end ProxyAuth
