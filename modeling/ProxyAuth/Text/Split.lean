import ProxyAuth.Text

/-!
# Cutting texts

Three ways to cut: at the first occurrence of a mark (`splitFirst?`), at every CR LF
(`crlfPieces`), and into the lines of a file (`lines`).  Cutting loses nothing:
`splitFirst?_eq_some` puts the two parts back around the mark.
-/

namespace ProxyAuth.Text

/-- Cut at the first occurrence of `mark`, which belongs to neither part. -/
def splitFirst? {α : Type} [DecidableEq α] (mark : List α) : List α → Option (List α × List α)
  | [] => if mark = [] then some ([], []) else none
  | c :: rest =>
      if mark.isPrefixOf (c :: rest) then some ([], (c :: rest).drop mark.length)
      else (splitFirst? mark rest).map fun (before, after) => (c :: before, after)

/-- Put a character in front of the first piece. -/
def consFirst (c : Char) : List Text → List Text
  | [] => [[c]]
  | piece :: pieces => (c :: piece) :: pieces

/-- Cut at every CR LF; a lone CR or LF stays inside its piece. -/
def crlfPieces : Text → List Text
  | [] => [[]]
  | '\r' :: '\n' :: rest => [] :: crlfPieces rest
  | c :: rest => consFirst c (crlfPieces rest)

/-- A line without the carriage return at its end, if it has one. -/
def dropReturn (line : Text) : Text :=
  if line.getLast? = some '\r' then line.dropLast else line

/-- The lines of a file.  A line feed ends a line, together with a carriage return before it;
what follows the last line feed is a line unless it is empty. -/
def lines (s : Text) : List Text :=
  let pieces := s.splitOn '\n'
  pieces.dropLast.map dropReturn ++ (pieces.getLast?.filter (· ≠ [])).toList

/-- The cut keeps every element: the parts around the mark make up the whole. -/
theorem splitFirst?_eq_some {α : Type} [DecidableEq α] {mark s before after : List α}
    (h : splitFirst? mark s = some (before, after)) : s = before ++ mark ++ after := by
  induction s generalizing before with
  | nil =>
    by_cases hm : mark = [] <;> simp_all [splitFirst?]
  | cons c rest ih =>
    unfold splitFirst? at h
    split at h
    · rename_i hp
      obtain ⟨t, ht⟩ := List.isPrefixOf_iff_prefix.mp hp
      obtain ⟨rfl, rfl⟩ := Prod.mk.inj (Option.some.inj h)
      simp [← ht]
    · obtain ⟨⟨b, a⟩, hr, he⟩ := Option.map_eq_some_iff.mp h
      obtain ⟨rfl, rfl⟩ := Prod.mk.inj he
      rw [ih hr]
      simp

@[simp] theorem crlfPieces_nil : crlfPieces [] = [[]] := rfl

@[simp] theorem crlfPieces_crlf (s : Text) :
    crlfPieces ('\r' :: '\n' :: s) = [] :: crlfPieces s := rfl

end ProxyAuth.Text
