import Mathlib.Tactic
import ProxyAuth.Proofs.Header.RoundTrip

/-!
# The text of a header

Nothing that is printed for a header can end the line on which it is sent, and no blank stands at
either end of it, so a reader that trims the line gets the same text.

* `not_forbidden_render`: no control character but the tab is printed;
* `isTrimmed_render`: no blank is printed at an end.
-/

namespace ProxyAuth.Header

open Text

theorem not_forbidden_of_isTokenChar {c : Char} (h : isTokenChar c = true) :
    isForbidden c = false := by
  obtain ⟨hlow, hhigh⟩ := isTokenChar_range h
  have hcontrol : isControl c = false := by
    simp only [isControl, Bool.or_eq_false_iff, Bool.and_eq_false_iff, decide_eq_false_iff_not]
    omega
  rw [isForbidden, hcontrol, Bool.false_and]

theorem not_forbidden_of_isToken {s : Text} (h : isToken s = true) :
    ∀ c ∈ s, isForbidden c = false := fun c hc =>
  not_forbidden_of_isTokenChar ((isToken_iff.mp h).2 c hc)

theorem not_forbidden_quotedString {value : Text} (h : ∀ c ∈ value, isForbidden c = false) :
    ∀ c ∈ quotedString value, isForbidden c = false := by
  have hescaped : ∀ c ∈ value.flatMap escapedChar, isForbidden c = false := by
    intro c hc
    obtain ⟨d, hd, hc⟩ := List.mem_flatMap.mp hc
    unfold escapedChar at hc
    split_ifs at hc with hmark
    · rcases List.mem_cons.mp hc with rfl | hc
      · decide
      · rw [List.mem_singleton.mp hc]
        exact h d hd
    · rw [List.mem_singleton.mp hc]
      exact h d hd
  intro c hc
  rcases List.mem_cons.mp hc with rfl | hc
  · decide
  · rcases List.mem_append.mp hc with hc | hc
    · exact hescaped c hc
    · rw [List.mem_singleton.mp hc]
      decide

/-- Assignments to tokens have no control characters but those of their values. -/
theorem not_forbidden_spelled {scheme : Text} (hscheme : isToken scheme = true)
    {spelled : Text × Text → Text} {ps : List (Text × Text)}
    (h : ∀ p ∈ ps, isToken p.1 = true ∧ ∀ c ∈ spelled p, isForbidden c = false) :
    ∀ c ∈ scheme ++ ' ' :: List.intercalate ", ".toList (ps.map fun p => p.1 ++ '=' :: spelled p),
      isForbidden c = false := by
  intro c hc
  rcases List.mem_append.mp hc with hc | hc
  · exact not_forbidden_of_isToken hscheme c hc
  rcases List.mem_cons.mp hc with rfl | hc
  · decide
  rcases mem_intercalate hc with hc | ⟨part, hpart, hc⟩
  · have hbetween : ∀ c ∈ [',', ' '], isForbidden c = false :=
      List.forall_mem_cons.mpr ⟨by decide, List.forall_mem_singleton.mpr (by decide)⟩
    exact hbetween c hc
  · obtain ⟨p, hp, rfl⟩ := List.mem_map.mp hpart
    obtain ⟨hname, hspelled⟩ := h p hp
    rcases List.mem_append.mp hc with hc | hc
    · exact not_forbidden_of_isToken hname c hc
    · rcases List.mem_cons.mp hc with rfl | hc
      · decide
      · exact hspelled c hc

/-- No control character but the tab is printed for a header. -/
theorem WellFormed.not_forbidden_render {h : Header} (hw : WellFormed h) :
    ∀ c ∈ h.render, isForbidden c = false := by
  unfold render
  split_ifs
  · exact not_forbidden_of_isToken hw.scheme_isToken
  · refine not_forbidden_spelled hw.scheme_isToken fun p hp => ?_
    obtain ⟨-, hname, -, hvalue⟩ := parameterFault?_eq_none_iff.mp (hw.legal p hp)
    refine ⟨hname, fun c hc => ?_⟩
    split_ifs at hc
    · exact not_forbidden_quotedString hvalue c hc
    · exact hvalue c hc

/-- Between a scheme and the end of its last assignment there may be blanks, at the ends there are
none. -/
theorem isTrimmed_spelled {scheme : Text} (hscheme : isToken scheme = true)
    {spelled : Text × Text → Text} {ps : List (Text × Text)} (hne : ps ≠ [])
    (h : ∀ p ∈ ps, isToken p.1 = true ∧ Spells (spelled p) p.2) :
    IsTrimmed (scheme ++ ' ' :: List.intercalate ", ".toList
      (ps.map fun p => p.1 ++ '=' :: spelled p)) := by
  constructor
  · intro c hc
    obtain ⟨d, tail, rfl⟩ := List.exists_cons_of_ne_nil (isToken_iff.mp hscheme).1
    exact (isTrimmed_of_isToken hscheme).head c hc
  · intro c hc
    -- The text ends where the last assignment does.
    obtain ⟨p, hp⟩ : ∃ p, ps.getLast? = some p := ⟨_, List.getLast?_eq_some_getLast hne⟩
    obtain ⟨hname, hspells⟩ := h p (List.mem_of_getLast? hp)
    have hparts : ∀ part ∈ ps.map (fun p => p.1 ++ '=' :: spelled p), part ≠ [] := by
      intro part hpart
      obtain ⟨q, -, rfl⟩ := List.mem_map.mp hpart
      simp
    rw [List.getLast?_append, List.getLast?_cons, getLast?_intercalate _ hparts,
      List.getLast?_map, hp, Option.map_some, Option.bind_some, Option.some_or] at hc
    refine (hspells.isTrimmed_assigned hname).last c ?_
    cases hend : (p.1 ++ '=' :: spelled p).getLast? with
    | none => exact absurd (List.getLast?_eq_none_iff.mp hend) (by simp)
    | some e => rwa [hend, Option.getD_some] at hc

/-- No blank is printed at an end of a header. -/
theorem WellFormed.isTrimmed_render {h : Header} (hw : WellFormed h) : IsTrimmed h.render := by
  unfold render
  split_ifs with hnil
  · exact isTrimmed_of_isToken hw.scheme_isToken
  · exact isTrimmed_spelled hw.scheme_isToken hnil fun p hp =>
      ⟨(parameterFault?_eq_none_iff.mp (hw.legal p hp)).2.1, spells_spelling h.isDigest p.1 p.2⟩

end ProxyAuth.Header
