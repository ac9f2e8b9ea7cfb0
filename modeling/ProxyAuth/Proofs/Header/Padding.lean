import Mathlib.Tactic
import ProxyAuth.Proofs.Header.RoundTrip
import ProxyAuth.Proofs.Verification

/-!
# Blanks around a header value

A header value may be read with the blanks around it or without them.  The blanks behind it end up
in its last part, which is trimmed, whether or not a quoted string is left open there.  Only behind
a lone scheme they matter: a space is then taken for the one that separates the parameters.  Such a
header is refused in either case, and as strictly.

* `assignments_append_blanks`: the blanks behind a parameter list do not count;
* `parse_trim`: what the blanks around a header value do;
* `kind_ofText_trim`: the kind of the verdict never depends on them.
-/

namespace ProxyAuth

open Text

namespace Header

variable {blanks : Text}

theorem splitAtCommas_blanks (h : ∀ c ∈ blanks, isBlank c = true) (q : Quoting) :
    splitAtCommas q blanks = [blanks] := by
  induction blanks generalizing q with
  | nil => exact splitAtCommas_nil q
  | cons c blanks ih =>
    have hcomma : c ≠ ',' := ne_of_isBlank (h c List.mem_cons_self) (by decide)
    rw [splitAtCommas, if_neg fun hc => hcomma hc.2, ih fun d hd => h d (List.mem_cons_of_mem _ hd)]
    rfl

/-- Blanks at the end belong to the last part, wherever the quotes end. -/
theorem splitAtCommas_append_blanks (h : ∀ c ∈ blanks, isBlank c = true) (q : Quoting) (s : Text) :
    ∃ parts last, splitAtCommas q s = parts ++ [last] ∧
      splitAtCommas q (s ++ blanks) = parts ++ [last ++ blanks] := by
  induction s generalizing q with
  | nil => exact ⟨[], [], splitAtCommas_nil q, splitAtCommas_blanks h q⟩
  | cons c s ih =>
    rw [List.cons_append, splitAtCommas, splitAtCommas]
    split_ifs with hcomma
    · obtain ⟨parts, last, hs, hblanks⟩ := ih .outside
      exact ⟨[] :: parts, last, by rw [hs]; rfl, by rw [hblanks]; rfl⟩
    · obtain ⟨parts, last, hs, hblanks⟩ := ih (q.after c)
      rw [hs, hblanks]
      cases parts with
      | nil => exact ⟨[], c :: last, rfl, rfl⟩
      | cons part parts => exact ⟨(c :: part) :: parts, last, rfl, rfl⟩

theorem assignment?_append_blanks (h : ∀ c ∈ blanks, isBlank c = true) (part : Text) :
    assignment? (part ++ blanks) = assignment? part := by
  rw [assignment?, trim_append_blanks h, assignment?]

/-- The blanks behind a parameter list do not count. -/
theorem assignments_append_blanks (h : ∀ c ∈ blanks, isBlank c = true) (s : Text) :
    assignments (s ++ blanks) = assignments s := by
  obtain ⟨parts, last, hs, hblanks⟩ := splitAtCommas_append_blanks h .outside s
  rw [assignments_eq_filterMap, assignments_eq_filterMap, hs, hblanks, List.filterMap_append,
    List.filterMap_append, List.filterMap_cons, List.filterMap_cons, assignment?_append_blanks h]

theorem assignments_blanks (h : ∀ c ∈ blanks, isBlank c = true) : assignments blanks = [] :=
  assignments_append_blanks h []

/-- The blanks around a header value count in one place: a space behind a lone scheme. -/
theorem parse_trim (s : Text) :
    parse (trim s) = parse s ∨
      parse (trim s) = .error .missingParameters ∧ parse s = ofScheme (trim s) := by
  obtain ⟨blanks, hblanks, hs⟩ := exists_trimEnd_append (trimStart s)
  have hs : trimStart s = trim s ++ blanks := hs
  have htrim : trimStart (trim s) = trim s := trimStart_eq_self (isTrimmed_trim s).head
  rw [parse, htrim, parse, hs]
  by_cases hspace : ' ' ∈ trim s
  · obtain ⟨scheme, rest, htext, hscheme⟩ := List.eq_append_cons_of_mem hspace
    left
    rw [htext, List.append_assoc, List.cons_append, splitFirst?_append_cons hscheme,
      splitFirst?_append_cons hscheme]
    dsimp only
    rw [assignments_append_blanks hblanks]
  · rw [splitFirst?_of_not_mem hspace]
    by_cases hlater : ' ' ∈ blanks
    · -- The space is found among the blanks, and nothing but blanks follows it.
      obtain ⟨front, back, rfl, hfront⟩ := List.eq_append_cons_of_mem hlater
      have hscheme : ' ' ∉ trim s ++ front := by simp [hspace, hfront]
      have hback : ∀ c ∈ back, isBlank c = true := fun c hc => hblanks c (by simp [hc])
      right
      rw [← List.append_assoc, splitFirst?_append_cons hscheme]
      dsimp only
      rw [assignments_blanks hback, trim_append_blanks fun c hc => hblanks c (by simp [hc]),
        trim_eq_self (isTrimmed_trim s)]
      refine ⟨rfl, ?_⟩
      cases ofScheme (trim s) <;> rfl
    · left
      rw [splitFirst?_of_not_mem (by simp [hspace, hlater])]

end Header

namespace Verdict

/-- A header without parameters is violated, whatever the reason. -/
theorem kind_ofText_of_ofScheme {s scheme : Text} (h : Header.parse s = Header.ofScheme scheme)
    (accounts : Accounts) (maxAge : Duration) (now : WallTime) (occasion : Occasion) :
    (ofText accounts maxAge now s occasion).kind = .violated := by
  rw [ofText, h]
  cases hscheme : Header.ofScheme scheme with
  | error fault => rfl
  | ok header =>
    obtain ⟨-, -, rfl⟩ := Header.ofScheme_eq_ok_iff.mp hscheme
    dsimp only
    unfold ofHeader
    split_ifs <;> rfl

/-- Blanks around a header value never change the kind of the verdict. -/
theorem kind_ofText_trim (accounts : Accounts) (maxAge : Duration) (now : WallTime) (s : Text)
    (occasion : Occasion) :
    (ofText accounts maxAge now (trim s) occasion).kind =
      (ofText accounts maxAge now s occasion).kind := by
  rcases Header.parse_trim s with h | ⟨hmissing, hscheme⟩
  · rw [ofText, ofText, h]
  · rw [kind_ofText_of_ofScheme hscheme, ofText, hmissing]
    rfl

end Verdict

end ProxyAuth
