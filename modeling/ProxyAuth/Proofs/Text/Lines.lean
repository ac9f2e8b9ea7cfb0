import Mathlib.Tactic
import ProxyAuth.Proofs.Text

/-!
# The lines of a text

A line feed ends a line, together with a carriage return before it; what follows the last line feed
is a line unless it is empty.  Line ends of both kinds may be mixed.

* `lines_append_cons`: the first line of a text with a line feed;
* `IsLined`, `lines_eq_iff`: which lines a text has;
* `lines_append_crlf`: a CR LF at the end of a text adds no line but an empty one.
-/

namespace ProxyAuth.Text

variable {s line rest : Text} {ls : List Text}

@[simp] theorem lines_nil : lines [] = [] := rfl

theorem lines_of_not_mem (h : '\n' ∉ line) (hne : line ≠ []) : lines line = [line] := by
  rw [lines, List.splitOn_eq_singleton h]
  simp [hne]

/-- The first line feed ends the first line. -/
theorem lines_append_cons (h : '\n' ∉ line) (rest : Text) :
    lines (line ++ '\n' :: rest) = dropReturn line :: lines rest := by
  obtain ⟨piece, pieces, hpieces⟩ := List.exists_cons_of_ne_nil (List.splitOn_ne_nil '\n' rest)
  rw [lines, List.splitOn_append_cons_self_of_not_mem h, lines, hpieces,
    List.dropLast_cons_of_ne_nil (List.cons_ne_nil _ _), List.getLast?_cons_cons]
  rfl

theorem dropReturn_concat (line : Text) : dropReturn (line ++ ['\r']) = line := by
  simp [dropReturn]

theorem dropReturn_eq_self (h : line.getLast? ≠ some '\r') : dropReturn line = line := if_neg h

/-- The first CR LF ends the first line, if there is no line feed before it. -/
theorem lines_append_crlf_cons (h : '\n' ∉ line) (rest : Text) :
    lines (line ++ '\r' :: '\n' :: rest) = line :: lines rest := by
  have hreturn : '\n' ∉ line ++ ['\r'] := by simpa using h
  have hcut := lines_append_cons hreturn rest
  rwa [List.append_assoc, dropReturn_concat] at hcut

/-- The text has these lines, each ended by a line feed or a CR LF, except perhaps the last. -/
inductive IsLined : Text → List Text → Prop
  | nil : IsLined [] []
  | unended {line : Text} (hline : '\n' ∉ line) (hne : line ≠ []) : IsLined line [line]
  | feed {line rest : Text} {ls : List Text} (hline : '\n' ∉ line)
      (hreturn : line.getLast? ≠ some '\r') (hrest : IsLined rest ls) :
      IsLined (line ++ '\n' :: rest) (line :: ls)
  | crlf {line rest : Text} {ls : List Text} (hline : '\n' ∉ line) (hrest : IsLined rest ls) :
      IsLined (line ++ '\r' :: '\n' :: rest) (line :: ls)

theorem IsLined.lines_eq (h : IsLined s ls) : lines s = ls := by
  induction h with
  | nil => rfl
  | unended hline hne => exact lines_of_not_mem hline hne
  | feed hline hreturn hrest ih => rw [lines_append_cons hline, dropReturn_eq_self hreturn, ih]
  | crlf hline hrest ih => rw [lines_append_crlf_cons hline, ih]

/-- A line that a line feed ends, with or without a carriage return before it. -/
theorem IsLined.cons (h : '\n' ∉ line) (hrest : IsLined rest ls) :
    IsLined (line ++ '\n' :: rest) (dropReturn line :: ls) := by
  by_cases hreturn : line.getLast? = some '\r'
  · obtain ⟨front, rfl⟩ := List.getLast?_eq_some_iff.mp hreturn
    rw [dropReturn_concat, List.append_assoc]
    exact .crlf (fun hmem => h (List.mem_append_left _ hmem)) hrest
  · rw [dropReturn_eq_self hreturn]
    exact .feed h hreturn hrest

theorem isLined_lines (s : Text) : IsLined s (lines s) := by
  induction hlength : s.length using Nat.strongRecOn generalizing s with
  | ind n ih =>
    by_cases hfeed : '\n' ∈ s
    · obtain ⟨line, rest, rfl, hline⟩ := List.eq_append_cons_of_mem hfeed
      rw [lines_append_cons hline]
      refine .cons hline (ih rest.length ?_ rest rfl)
      rw [← hlength, List.length_append, List.length_cons]
      omega
    · by_cases hne : s = []
      · subst hne
        exact .nil
      · rw [lines_of_not_mem hfeed hne]
        exact .unended hfeed hne

/-- Cutting into lines finds the lines of a text. -/
theorem lines_eq_iff : lines s = ls ↔ IsLined s ls :=
  ⟨fun h => h ▸ isLined_lines s, IsLined.lines_eq⟩

/-- A CR LF at the end of a text ends its last line; where that line is ended already, it makes an
empty one. -/
theorem lines_append_crlf (s : Text) :
    lines (s ++ ['\r', '\n']) = lines s ∨ lines (s ++ ['\r', '\n']) = lines s ++ [[]] := by
  have h := isLined_lines s
  generalize lines s = ls at h
  induction h with
  | nil => exact .inr rfl
  | unended hline hne => exact .inl (lines_append_crlf_cons hline [])
  | feed hline hreturn hrest ih =>
    rw [List.append_assoc, List.cons_append, lines_append_cons hline, dropReturn_eq_self hreturn]
    simpa using ih
  | crlf hline hrest ih =>
    rw [List.append_assoc, List.cons_append, List.cons_append, lines_append_crlf_cons hline]
    simpa using ih

end ProxyAuth.Text
