import Mathlib.Tactic
import ProxyAuth.Page
import ProxyAuth.Proofs.Text.Lines

/-!
# Lines of a head

A head is written line by line, each line ended by CR LF, and read by cutting at CR LF or at line
feeds.  Lines without CR LF are found again, and a blank line is nowhere but behind the last one.

* `crlfPieces_headLines`: cutting at CR LF undoes writing lines;
* `crlfPieces_eq_iff`: and finds the lines of every text;
* `not_infix_headLines`: no blank line stands before the end of the last line;
* `splitFirst?_headLines`: so a head is cut from a body where it ends;
* `lines_headLines`: cutting at line feeds finds the same lines;
* `exists_head`: both together;
* `exists_shown`: what is cut from a body has the lines of the head, however they are ended.
-/

namespace ProxyAuth.Text

open Page (headLines)

/-- The end of a line. -/
def crlf : Text := ['\r', '\n']

/-- A line of a head: not empty, and without a line end of its own. -/
structure IsLine (line : Text) : Prop where
  ne_nil : line ≠ []
  unbroken : ¬ crlf <:+: line

/-- The lines of a text: none has a line end of its own, and with one between any two of them they
make up the text. -/
structure IsCut (s : Text) (ls : List Text) : Prop where
  ne_nil : ls ≠ []
  unbroken : ∀ line ∈ ls, ¬ crlf <:+: line
  joined : crlf.intercalate ls = s

theorem not_infix_of_not_mem {line : Text} (h : '\n' ∉ line) : ¬ crlf <:+: line := fun hinside =>
  h (hinside.subset (by decide))

@[simp] theorem headLines_nil : headLines [] = [] := rfl

theorem headLines_cons (line : Text) (rest : List Text) :
    headLines (line :: rest) = line ++ '\r' :: '\n' :: headLines rest := by
  simp [headLines]

theorem headLines_append (front back : List Text) :
    headLines (front ++ back) = headLines front ++ headLines back :=
  List.flatMap_append

theorem suffix_headLines {ls : List Text} (h : ls ≠ []) : crlf <:+ headLines ls := by
  rw [← List.dropLast_append_getLast h, headLines_append]
  exact ⟨headLines ls.dropLast ++ ls.getLast h, by simp [headLines_cons, crlf]⟩

/-! ### Cutting at CR LF -/

theorem crlfPieces_cons {c : Char} {rest : Text} (h : ¬ crlf <+: c :: rest) :
    crlfPieces (c :: rest) = consFirst c (crlfPieces rest) := by
  rw [crlfPieces]
  rintro after rfl rfl
  exact h (List.prefix_append crlf after)

theorem crlfPieces_ne_nil (s : Text) : crlfPieces s ≠ [] := by
  fun_cases crlfPieces s with
  | case1 => exact List.cons_ne_nil _ _
  | case2 rest => exact List.cons_ne_nil _ _
  | case3 c rest => cases crlfPieces rest <;> exact List.cons_ne_nil _ _

theorem consFirst_append {pieces : List Text} (h : pieces ≠ []) (c : Char) (more : List Text) :
    consFirst c (pieces ++ more) = consFirst c pieces ++ more := by
  obtain ⟨piece, pieces, rfl⟩ := List.exists_cons_of_ne_nil h
  rfl

/-- A CR LF ends a piece wherever it stands. -/
theorem crlfPieces_append (before after : Text) :
    crlfPieces (before ++ '\r' :: '\n' :: after) = crlfPieces before ++ crlfPieces after := by
  induction before using crlfPieces.induct with
  | case1 => rfl
  | case2 rest ih =>
    rw [List.cons_append, List.cons_append, crlfPieces_crlf, crlfPieces_crlf, ih, List.cons_append]
  | case3 c rest hno ih =>
    have hno' : ¬ crlf <+: c :: (rest ++ '\r' :: '\n' :: after) := by
      -- The line feed of a CR LF at the front would be the first character of the rest.
      rintro ⟨tail, htail⟩
      obtain ⟨rfl, hrest⟩ := List.cons_eq_cons.mp htail
      cases rest with
      | nil => cases hrest
      | cons d rest =>
        obtain ⟨rfl, -⟩ := List.cons_eq_cons.mp hrest
        exact hno rest rfl rfl
    rw [List.cons_append, crlfPieces_cons hno', ih, consFirst_append (crlfPieces_ne_nil rest),
      crlfPieces.eq_3 c rest hno]

/-- Without CR LF there is one piece. -/
theorem crlfPieces_of_unbroken {s : Text} (h : ¬ crlf <:+: s) : crlfPieces s = [s] := by
  induction s with
  | nil => rfl
  | cons c rest ih =>
    rw [List.infix_cons_iff, not_or] at h
    rw [crlfPieces_cons h.1, ih h.2]
    rfl

/-- Cutting at CR LF undoes writing lines. -/
theorem crlfPieces_headLines {ls : List Text} (h : ∀ line ∈ ls, ¬ crlf <:+: line) (rest : Text) :
    crlfPieces (headLines ls ++ rest) = ls ++ crlfPieces rest := by
  induction ls with
  | nil => rfl
  | cons line ls ih =>
    rw [headLines_cons, List.append_assoc, List.cons_append, List.cons_append, crlfPieces_append,
      crlfPieces_of_unbroken (h line List.mem_cons_self),
      ih fun l hl => h l (List.mem_cons_of_mem _ hl)]
    rfl

theorem intercalate_consFirst {pieces : List Text} (h : pieces ≠ []) (c : Char) :
    crlf.intercalate (consFirst c pieces) = c :: crlf.intercalate pieces := by
  obtain ⟨piece, pieces, rfl⟩ := List.exists_cons_of_ne_nil h
  cases pieces <;> simp [consFirst, List.intercalate_cons_cons]

/-- The pieces make up the text. -/
theorem intercalate_crlfPieces (s : Text) : crlf.intercalate (crlfPieces s) = s := by
  induction s using crlfPieces.induct with
  | case1 => rfl
  | case2 rest ih =>
    obtain ⟨piece, pieces, hpieces⟩ := List.exists_cons_of_ne_nil (crlfPieces_ne_nil rest)
    rw [crlfPieces_crlf, hpieces, List.intercalate_cons_cons, ← hpieces, ih]
    rfl
  | case3 c rest hno ih =>
    rw [crlfPieces.eq_3 c rest hno, intercalate_consFirst (crlfPieces_ne_nil rest), ih]

/-- No piece has a CR LF. -/
theorem not_infix_of_mem_crlfPieces {s piece : Text} (h : piece ∈ crlfPieces s) :
    ¬ crlf <:+: piece := by
  induction s using crlfPieces.induct generalizing piece with
  | case1 =>
    rw [crlfPieces_nil, List.mem_singleton] at h
    subst h
    decide
  | case2 rest ih =>
    rcases List.mem_cons.mp h with rfl | h
    · decide
    · exact ih h
  | case3 c rest hno ih =>
    obtain ⟨first, pieces, hpieces⟩ := List.exists_cons_of_ne_nil (crlfPieces_ne_nil rest)
    rw [crlfPieces.eq_3 c rest hno, hpieces] at h
    rw [hpieces] at ih
    rcases List.mem_cons.mp h with rfl | h
    · -- The rest starts with the first piece, so it would start with the line feed.
      have hstart : first <+: rest := by
        rw [← intercalate_crlfPieces rest, hpieces]
        cases pieces with
        | nil => rw [List.intercalate_singleton]
        | cons piece pieces =>
          rw [List.intercalate_cons_cons, List.append_assoc]
          exact List.prefix_append _ _
      rw [List.infix_cons_iff, not_or]
      refine ⟨fun hfront => ?_, ih List.mem_cons_self⟩
      obtain ⟨rfl, hfeed⟩ := List.cons_prefix_cons.mp hfront
      obtain ⟨after, rfl⟩ := hfeed.trans hstart
      exact hno after rfl rfl
    · exact ih (List.mem_cons_of_mem _ h)

theorem intercalate_crlf_concat (front : List Text) (last : Text) :
    crlf.intercalate (front ++ [last]) = headLines front ++ last := by
  induction front with
  | nil => simp
  | cons line front ih =>
    obtain ⟨next, rest, hrest⟩ : ∃ next rest, front ++ [last] = next :: rest :=
      List.exists_cons_of_ne_nil (by simp)
    rw [List.cons_append, hrest, List.intercalate_cons_cons, ← hrest, ih, headLines_cons]
    simp [crlf]

/-- Cutting at CR LF finds the lines of a text. -/
theorem crlfPieces_eq_iff {s : Text} {ls : List Text} : crlfPieces s = ls ↔ IsCut s ls := by
  constructor
  · rintro rfl
    exact ⟨crlfPieces_ne_nil s, fun _ => not_infix_of_mem_crlfPieces, intercalate_crlfPieces s⟩
  · rintro ⟨hne, hunbroken, rfl⟩
    obtain ⟨front, last, rfl⟩ : ∃ front last, ls = front ++ [last] :=
      ⟨_, _, (List.dropLast_append_getLast hne).symm⟩
    rw [intercalate_crlf_concat,
      crlfPieces_headLines fun line hline => hunbroken line (List.mem_append_left _ hline),
      crlfPieces_of_unbroken (hunbroken last (List.mem_append_right _ List.mem_cons_self))]

/-! ### The blank line -/

/-- A blank line inside a text is an empty piece of it. -/
theorem nil_mem_crlfPieces {s : Text} (h : crlf ++ crlf <:+: s) : [] ∈ crlfPieces s := by
  obtain ⟨before, after, rfl⟩ := h
  have hpieces : crlfPieces (before ++ (crlf ++ crlf) ++ after) =
      crlfPieces before ++ [] :: crlfPieces after := by
    rw [List.append_assoc]
    exact crlfPieces_append before ('\r' :: '\n' :: after)
  rw [hpieces]
  exact List.mem_append_right _ List.mem_cons_self

/-- No blank line stands before the end of the last line. -/
theorem not_infix_headLines {ls : List Text} (h : ∀ line ∈ ls, IsLine line) :
    ¬ crlf ++ crlf <:+: headLines ls ++ ['\r'] := by
  intro hinside
  have hmem := nil_mem_crlfPieces hinside
  rw [crlfPieces_headLines fun line hline => (h line hline).unbroken] at hmem
  rcases List.mem_append.mp hmem with hmem | hmem
  · exact (h [] hmem).ne_nil rfl
  · exact absurd hmem (by decide)

/-- A head is cut from a body behind its last line. -/
theorem splitFirst?_headLines {ls : List Text} {last : Text}
    (h : ∀ line ∈ ls ++ [last], IsLine line) (body : Text) :
    splitFirst? "\r\n\r\n".toList (headLines (ls ++ [last]) ++ crlf ++ body) =
      some (headLines ls ++ last, body) := by
  have hlast : headLines (ls ++ [last]) = headLines ls ++ last ++ crlf := by
    rw [headLines_append, headLines_cons, List.append_assoc]
    rfl
  have hfirst : ¬ "\r\n\r\n".toList <:+: (headLines ls ++ last ++ "\r\n\r\n".toList).dropLast := by
    have hno := not_infix_headLines h
    rw [hlast, List.append_assoc] at hno
    rwa [List.dropLast_append_of_ne_nil (by decide)]
  have hcut := splitFirst?_of_first (by decide) hfirst body
  rw [hlast, List.append_assoc (headLines ls ++ last)]
  exact hcut

/-- A text that is not at the end of a line is cut from a body behind it. -/
theorem splitFirst?_blank {shown : Text} (h : ¬ crlf ++ crlf <:+: shown) (hend : ¬ crlf <:+ shown)
    (body : Text) :
    splitFirst? "\r\n\r\n".toList (shown ++ (crlf ++ crlf) ++ body) = some (shown, body) := by
  refine splitFirst?_of_first (by decide) (fun hinside => ?_) body
  rw [List.dropLast_append_of_ne_nil (by decide)] at hinside
  obtain ⟨before, after, heq⟩ := hinside
  rw [List.append_assoc] at heq
  rcases List.append_eq_append_iff.mp heq with ⟨more, rfl, hmore⟩ | ⟨more, -, hmore⟩
  · -- The blank line would start in the text, with less than half of it behind the text.
    match more, hmore with
    | [], hmore => cases hmore
    | [_], hmore => cases hmore
    | [a, b], hmore =>
      obtain ⟨rfl, rfl, -⟩ : '\r' = a ∧ '\n' = b ∧ after = ['\r'] := by simpa using hmore
      exact hend (List.suffix_append _ _)
    | [_, _, _], hmore => cases hmore
    | a :: b :: c :: d :: more, hmore =>
      obtain ⟨rfl, rfl, rfl, rfl, -⟩ : '\r' = a ∧ '\n' = b ∧ '\r' = c ∧ '\n' = d ∧ _ := by
        simpa using hmore
      exact h ⟨before, more, by simp [crlf]⟩
  · exact absurd (congrArg List.length hmore) (by simp; omega)

/-- A text without a blank line is cut from a body behind it, or in front of its last line end. -/
theorem exists_splitFirst?_blank {head : Text} (h : ¬ crlf ++ crlf <:+: head) (body : Text) :
    ∃ shown rest, splitFirst? "\r\n\r\n".toList (head ++ (crlf ++ crlf) ++ body) =
      some (shown, rest) ∧ (head = shown ∨ head = shown ++ crlf) := by
  by_cases hend : crlf <:+ head
  · obtain ⟨shown, rfl⟩ := hend
    have hshown : ¬ crlf ++ crlf <:+: shown := fun hinside =>
      h (hinside.trans (List.prefix_append _ _).isInfix)
    have hshownEnd : ¬ crlf <:+ shown := by
      rintro ⟨front, rfl⟩
      exact h ⟨front, [], by simp⟩
    refine ⟨shown, crlf ++ body, ?_, .inr rfl⟩
    rw [← splitFirst?_blank hshown hshownEnd (crlf ++ body)]
    simp
  · exact ⟨head, body, splitFirst?_blank h hend body, .inl rfl⟩

/-! ### Cutting at line feeds -/

/-- Cutting at line feeds finds the lines of a head, the last one without its end. -/
theorem lines_headLines {ls : List Text} {last : Text} (h : ∀ line ∈ ls ++ [last], '\n' ∉ line)
    (hlast : last ≠ []) : lines (headLines ls ++ last) = ls ++ [last] := by
  induction ls with
  | nil => exact lines_of_not_mem (h last List.mem_cons_self) hlast
  | cons line ls ih =>
    rw [headLines_cons, List.append_assoc, List.cons_append, List.cons_append,
      lines_append_crlf_cons (h line List.mem_cons_self),
      ih fun l hl => h l (List.mem_cons_of_mem _ hl), List.cons_append]

/-- **A head is told from a body.**  Whatever the body, the first blank line is the one behind the
last line of the head, and what stands before it has the same lines. -/
theorem exists_head {ls : List Text} (hne : ls ≠ []) (h : ∀ line ∈ ls, line ≠ [] ∧ '\n' ∉ line)
    (body : Text) :
    ∃ head, splitFirst? "\r\n\r\n".toList (headLines ls ++ crlf ++ body) = some (head, body) ∧
      head ++ crlf = headLines ls ∧ lines head = ls := by
  obtain ⟨front, last, rfl⟩ : ∃ front last, ls = front ++ [last] :=
    ⟨_, _, (List.dropLast_append_getLast hne).symm⟩
  refine ⟨headLines front ++ last, ?_, ?_, ?_⟩
  · exact splitFirst?_headLines (fun line hline =>
      ⟨(h line hline).1, not_infix_of_not_mem (h line hline).2⟩) body
  · rw [headLines_append, headLines_cons, List.append_assoc]
    rfl
  · exact lines_headLines (fun line hline => (h line hline).2)
      (h last (List.mem_append_right _ List.mem_cons_self)).1

/-- What is cut from a body has the lines of the head, but for an empty one at its end. -/
theorem exists_shown {head : Text} (h : ¬ crlf ++ crlf <:+: head) (body : Text) :
    ∃ shown rest, splitFirst? "\r\n\r\n".toList (head ++ (crlf ++ crlf) ++ body) =
      some (shown, rest) ∧ (lines head = lines shown ∨ lines head = lines shown ++ [[]]) := by
  obtain ⟨shown, rest, hcut, rfl | rfl⟩ := exists_splitFirst?_blank h body
  · exact ⟨head, rest, hcut, .inl rfl⟩
  · exact ⟨shown, rest, hcut, lines_append_crlf shown⟩

end ProxyAuth.Text
