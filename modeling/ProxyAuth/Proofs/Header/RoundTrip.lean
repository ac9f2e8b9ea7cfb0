import Mathlib.Tactic
import ProxyAuth.Header.Printer
import ProxyAuth.Proofs.Header.Bounds

/-!
# Reading what was printed

A header that was built by calls is printed and read back without loss.  The reader undoes the
printer layer by layer:

* `Sealed`: a text whose commas are all inside quotes; cutting at commas takes sealed parts apart
  again (`splitAtCommas_intercalate`), and everything the printer writes for a parameter is sealed;
* `unquote_quotedString`: quotes and backslashes are removed as they were put;
* `setAll_of_sorted`: storing parameters in order rebuilds the list they came from.

Main statement: `parse_render_of_reachable`.
-/

namespace ProxyAuth.Header

open Text

/-! ### Cutting at commas -/

/-- Put a text in front of the first piece. -/
def prepend (s : Text) (pieces : List Text) : List Text := s.foldr consFirst pieces

@[simp] theorem prepend_nil (pieces : List Text) : prepend [] pieces = pieces := rfl

@[simp] theorem prepend_cons (c : Char) (s : Text) (pieces : List Text) :
    prepend (c :: s) pieces = consFirst c (prepend s pieces) := rfl

theorem prepend_append (s t : Text) (pieces : List Text) :
    prepend (s ++ t) pieces = prepend s (prepend t pieces) :=
  List.foldr_append

theorem prepend_piece (s piece : Text) (pieces : List Text) :
    prepend s (piece :: pieces) = (s ++ piece) :: pieces := by
  induction s with
  | nil => rfl
  | cons c rest ih => rw [prepend_cons, ih, consFirst, List.cons_append]

/-- Outside quotes a text is sealed if none of its commas separates and it ends outside quotes:
whatever follows, it stays in one piece. -/
def Sealed (s : Text) : Prop :=
  ∀ rest, splitAtCommas .outside (s ++ rest) = prepend s (splitAtCommas .outside rest)

theorem Sealed.nil : Sealed [] := fun _ => rfl

theorem Sealed.append {s t : Text} (hs : Sealed s) (ht : Sealed t) : Sealed (s ++ t) := by
  intro rest
  rw [List.append_assoc, hs, ht, prepend_append]

/-- Outside quotes only the comma and the quote mean anything. -/
theorem Sealed.of_forall {s : Text} (h : ∀ c ∈ s, c ≠ ',' ∧ c ≠ '"') : Sealed s := by
  intro rest
  induction s with
  | nil => rfl
  | cons c s ih =>
    obtain ⟨hcomma, hquote⟩ := h c List.mem_cons_self
    rw [List.cons_append, splitAtCommas, if_neg fun hc => hcomma hc.2, prepend_cons,
      ← ih fun d hd => h d (List.mem_cons_of_mem _ hd)]
    simp [Quoting.after, hquote]

theorem Sealed.of_not_mem {s : Text} (hcomma : ',' ∉ s) (hquote : '"' ∉ s) : Sealed s :=
  .of_forall fun _ hc => ⟨fun he => hcomma (he ▸ hc), fun he => hquote (he ▸ hc)⟩

theorem Sealed.splitAtCommas_comma {s : Text} (hs : Sealed s) (rest : Text) :
    splitAtCommas .outside (s ++ ',' :: rest) = s :: splitAtCommas .outside rest := by
  have hcomma : splitAtCommas .outside (',' :: rest) = [] :: splitAtCommas .outside rest := by
    simp [splitAtCommas]
  rw [hs, hcomma, prepend_piece, List.append_nil]

/-- Sealed parts are taken apart again. -/
theorem splitAtCommas_intercalate {parts : List Text} (hne : parts ≠ [])
    (hs : ∀ part ∈ parts, Sealed part) :
    splitAtCommas .outside (List.intercalate [','] parts) = parts := by
  induction parts with
  | nil => exact absurd rfl hne
  | cons part parts ih =>
    have hpart := hs part List.mem_cons_self
    cases parts with
    | nil =>
      -- Nothing follows the last part.
      have h := hpart []
      rw [splitAtCommas_nil, prepend_piece, List.append_nil] at h
      simpa using h
    | cons next parts =>
      rw [List.intercalate_cons_cons, List.append_assoc, List.singleton_append,
        hpart.splitAtCommas_comma,
        ih (List.cons_ne_nil _ _) fun p hp => hs p (List.mem_cons_of_mem _ hp)]

/-- A blank behind every comma belongs to the part after it. -/
theorem intercalate_comma_space (part : Text) (parts : List Text) :
    List.intercalate ", ".toList (part :: parts) =
      List.intercalate [','] (part :: parts.map (' ' :: ·)) := by
  induction parts generalizing part with
  | nil => rfl
  | cons next parts ih =>
    rw [List.intercalate_cons_cons, ih, List.map_cons, List.intercalate_cons_cons]
    cases parts <;> simp

/-! ### Quoted strings -/

theorem unescape_cons {c : Char} (h : c ≠ '\\') (rest : Text) :
    unescape (c :: rest) = c :: unescape rest := by
  cases rest <;> simp [unescape, h]

/-- A character between quotes, as it is or behind a backslash. -/
inductive QuotedChar
  | plain (c : Char) (unmarked : c ≠ '"' ∧ c ≠ '\\')
  | escaped (c : Char)

namespace QuotedChar

/-- The character that is meant. -/
def char : QuotedChar → Char
  | plain c _ => c
  | escaped c => c

/-- The characters that are written. -/
def spell : QuotedChar → Text
  | plain c _ => [c]
  | escaped c => ['\\', c]

/-- A backslash where there has to be one, and nowhere else. -/
def printed (c : Char) : QuotedChar :=
  if h : c = '"' ∨ c = '\\' then .escaped c else .plain c (not_or.mp h)

theorem char_printed (c : Char) : (printed c).char = c := by
  unfold printed
  split_ifs <;> rfl

theorem spell_printed (c : Char) : (printed c).spell = escapedChar c := by
  unfold printed escapedChar
  split_ifs <;> rfl

end QuotedChar

/-- A quoted string. -/
def quotation (chars : List QuotedChar) : Text :=
  '"' :: chars.flatMap QuotedChar.spell ++ ['"']

theorem quotedString_eq_quotation (value : Text) :
    quotedString value = quotation (value.map .printed) := by
  rw [quotation, List.flatMap_map, funext QuotedChar.spell_printed, quotedString]

/-- What stands between quotes stays in one piece and ends between quotes. -/
theorem splitAtCommas_spelled (chars : List QuotedChar) (rest : Text) :
    splitAtCommas .inside (chars.flatMap QuotedChar.spell ++ rest) =
      prepend (chars.flatMap QuotedChar.spell) (splitAtCommas .inside rest) := by
  induction chars with
  | nil => rfl
  | cons c chars ih =>
    rw [List.flatMap_cons, List.append_assoc, prepend_append, ← ih]
    cases c with
    | plain c unmarked =>
      simp [QuotedChar.spell, splitAtCommas, Quoting.after, unmarked.1, unmarked.2]
    | escaped c => simp [QuotedChar.spell, splitAtCommas, Quoting.after]

/-- A quoted string is sealed, whatever is inside. -/
theorem sealed_quotation (chars : List QuotedChar) : Sealed (quotation chars) := by
  intro rest
  have hopen (s : Text) :
      splitAtCommas .outside ('"' :: s) = consFirst '"' (splitAtCommas .inside s) := by
    simp [splitAtCommas, Quoting.after]
  have hclose (s : Text) :
      splitAtCommas .inside ('"' :: s) = consFirst '"' (splitAtCommas .outside s) := by
    simp [splitAtCommas, Quoting.after]
  calc splitAtCommas .outside (quotation chars ++ rest)
      = consFirst '"' (splitAtCommas .inside (chars.flatMap QuotedChar.spell ++ '"' :: rest)) := by
        rw [← hopen]
        simp [quotation]
    _ = consFirst '"' (prepend (chars.flatMap QuotedChar.spell)
          (consFirst '"' (splitAtCommas .outside rest))) := by
        rw [splitAtCommas_spelled, hclose]
    _ = prepend (quotation chars) (splitAtCommas .outside rest) := by
        simp [quotation, prepend_append]

/-- Unescaping finds what was meant. -/
theorem unescape_spelled (chars : List QuotedChar) :
    unescape (chars.flatMap QuotedChar.spell) = chars.map QuotedChar.char := by
  induction chars with
  | nil => rfl
  | cons c chars ih =>
    rw [List.flatMap_cons, List.map_cons, ← ih]
    cases c with
    | plain c unmarked => exact unescape_cons unmarked.2 _
    | escaped c =>
      rw [QuotedChar.spell, List.cons_append, List.singleton_append, unescape]
      rfl

theorem unquote_quotation (chars : List QuotedChar) :
    unquote (quotation chars) = chars.map QuotedChar.char := by
  simp [unquote, quotation, unescape_spelled]

theorem isTrimmed_quotation (chars : List QuotedChar) : IsTrimmed (quotation chars) where
  head c hc := by
    obtain rfl : '"' = c := by simpa [quotation] using hc
    decide
  last c hc := by
    obtain rfl : '"' = c := by simpa [quotation, List.getLast?_cons] using hc
    decide

theorem unquote_quotedString (value : Text) : unquote (quotedString value) = value := by
  rw [quotedString_eq_quotation, unquote_quotation, List.map_map]
  exact List.map_id'' QuotedChar.char_printed value

/-- A text that does not start with a quote stands for itself. -/
theorem unquote_of_head_ne {s : Text} (h : s.head? ≠ some '"') : unquote s = s := by
  cases s with
  | nil => rfl
  | cons c rest =>
    have hc : c ≠ '"' := by simpa using h
    unfold unquote
    split
    · simp_all
    · rfl

/-! ### One parameter -/

/-- The parameter that a part between commas assigns, if it is an assignment. -/
def assignment? (part : Text) : Option (Text × Text) :=
  (splitFirst? ['='] (trim part)).map fun (name, spelled) => (trim name, unquote (trim spelled))

theorem assignments_eq_filterMap (s : Text) :
    assignments s = (splitAtCommas .outside s).filterMap assignment? := by
  rw [assignments, List.filterMap_map]
  rfl

/-- Blanks around a name and around a value do not count. -/
theorem assignment?_padded {name spelled front before after back : Text} (hname : IsTrimmed name)
    (hequals : '=' ∉ name) (hspelled : IsTrimmed spelled) (hfront : ∀ c ∈ front, isBlank c = true)
    (hbefore : ∀ c ∈ before, isBlank c = true) (hafter : ∀ c ∈ after, isBlank c = true)
    (hback : ∀ c ∈ back, isBlank c = true) :
    assignment? (front ++ (name ++ (before ++ '=' :: (after ++ (spelled ++ back))))) =
      some (name, unquote spelled) := by
  have hpart : front ++ (name ++ (before ++ '=' :: (after ++ (spelled ++ back)))) =
      front ++ (name ++ before) ++ '=' :: (after ++ (spelled ++ back)) := by simp
  have hblank {blanks : Text} (h : ∀ c ∈ blanks, isBlank c = true) : '=' ∉ blanks := fun hc =>
    ne_of_isBlank (h _ hc) (by decide) rfl
  have hfirst : '=' ∉ trimStart (front ++ (name ++ before)) := fun hc => by
    have hmem := (suffix_trimStart _).subset hc
    simp [hblank hfront, hblank hbefore, hequals] at hmem
  -- The equals sign is no blank, so trimming leaves it the first of the part.
  rw [assignment?, hpart, trim_append_cons (by decide), splitFirst?_append_cons hfirst,
    Option.map_some]
  dsimp only
  rw [trim_trimStart, trim_padded hfront hname hbefore, trim_trimEnd,
    trim_padded hafter hspelled hback]

theorem sealed_of_isToken {s : Text} (h : isToken s = true) : Sealed s := by
  refine .of_forall fun c hc => ?_
  have hchar := (isToken_iff.mp h).2 c hc
  exact ⟨ne_of_isTokenChar hchar (by decide), ne_of_isTokenChar hchar (by decide)⟩

/-- A spelling of a value, as it may stand behind an equals sign. -/
structure Spells (spelled value : Text) : Prop where
  ne_nil : spelled ≠ []
  isTrimmed : IsTrimmed spelled
  isSealed : Sealed spelled
  unquote_eq : unquote spelled = value

theorem spells_quotedString (value : Text) : Spells (quotedString value) value where
  ne_nil := by simp [quotedString]
  isTrimmed := quotedString_eq_quotation value ▸ isTrimmed_quotation _
  isSealed := quotedString_eq_quotation value ▸ sealed_quotation _
  unquote_eq := unquote_quotedString value

theorem spells_of_isToken {value : Text} (h : isToken value = true) : Spells value value where
  ne_nil := (isToken_iff.mp h).1
  isTrimmed := isTrimmed_of_isToken h
  isSealed := sealed_of_isToken h
  unquote_eq := unquote_of_head_ne fun hq =>
    not_mem_of_isToken h (by decide) (List.mem_of_head? hq)

/-- How a value is written behind its name. -/
def spelling (digest : Bool) (name value : Text) : Text :=
  if digest && alwaysQuoted.contains name || !isToken value then quotedString value else value

/-- A value is written between quotes, or it is a token. -/
theorem spells_spelling (digest : Bool) (name value : Text) :
    Spells (spelling digest name value) value := by
  unfold spelling
  split_ifs with h
  · exact spells_quotedString value
  · simp only [Bool.or_eq_true, not_or] at h
    exact spells_of_isToken (by simpa using h.2)

namespace Spells

variable {name spelled value : Text}

theorem sealed_assigned (hs : Spells spelled value) (h : isToken name = true) :
    Sealed (name ++ '=' :: spelled) := by
  have heq : Sealed ['='] := .of_forall (by simp)
  exact (sealed_of_isToken h).append (heq.append hs.isSealed)

theorem isTrimmed_assigned (hs : Spells spelled value) (h : isToken name = true) :
    IsTrimmed (name ++ '=' :: spelled) where
  head c hc := by
    obtain ⟨d, rest, rfl⟩ := List.exists_cons_of_ne_nil (isToken_iff.mp h).1
    exact (isTrimmed_of_isToken h).head c hc
  last c hc := by
    rw [List.getLast?_append_cons, List.getLast?_cons_of_ne_nil hs.ne_nil] at hc
    exact hs.isTrimmed.last c hc

/-- An assignment is read back, with or without blanks in front. -/
theorem assignment?_assigned (hs : Spells spelled value) (h : isToken name = true) {blanks : Text}
    (hb : ∀ c ∈ blanks, isBlank c = true) :
    assignment? (blanks ++ (name ++ '=' :: spelled)) = some (name, value) := by
  have hread := assignment?_padded (isTrimmed_of_isToken h) (not_mem_of_isToken h (by decide))
    hs.isTrimmed hb (List.forall_mem_nil _) (List.forall_mem_nil _) (List.forall_mem_nil _)
  rwa [List.nil_append, List.nil_append, List.append_nil, hs.unquote_eq] at hread

end Spells

/-! ### All parameters -/

/-- A list of assignments is read back, in whatever way their values are spelled. -/
theorem assignments_spelled {spelled : Text × Text → Text} {ps : List (Text × Text)} (hne : ps ≠ [])
    (h : ∀ p ∈ ps, isToken p.1 = true ∧ Spells (spelled p) p.2) :
    assignments (List.intercalate ", ".toList (ps.map fun p => p.1 ++ '=' :: spelled p)) = ps := by
  obtain ⟨p, ps, rfl⟩ := List.exists_cons_of_ne_nil hne
  rw [List.map_cons, intercalate_comma_space, assignments_eq_filterMap,
    splitAtCommas_intercalate (List.cons_ne_nil _ _)]
  · obtain ⟨hname, hspells⟩ := h p List.mem_cons_self
    have hfirst := hspells.assignment?_assigned hname (List.forall_mem_nil _)
    rw [List.nil_append] at hfirst
    rw [List.filterMap_cons_some hfirst, List.map_map, List.filterMap_map]
    congr 1
    -- Every later part has one blank in front.
    have hblank : ∀ c ∈ [' '], isBlank c = true := List.forall_mem_singleton.mpr (by decide)
    have hrest : ∀ q ∈ ps, assignment? (' ' :: (q.1 ++ '=' :: spelled q)) = some q := by
      intro q hq
      obtain ⟨hname, hspells⟩ := h q (List.mem_cons_of_mem _ hq)
      exact hspells.assignment?_assigned hname hblank
    calc ps.filterMap (fun q => assignment? (' ' :: (q.1 ++ '=' :: spelled q)))
        = ps.filterMap some := List.filterMap_congr hrest
      _ = ps := List.filterMap_some
  · intro part hpart
    have hblank : Sealed [' '] := .of_forall (by simp)
    simp only [List.map_map, List.mem_cons, List.mem_map] at hpart
    rcases hpart with rfl | ⟨q, hq, rfl⟩
    · obtain ⟨hname, hspells⟩ := h p List.mem_cons_self
      exact hspells.sealed_assigned hname
    · obtain ⟨hname, hspells⟩ := h q (List.mem_cons_of_mem _ hq)
      exact hblank.append (hspells.sealed_assigned hname)

/-- A printed list of parameters is read back. -/
theorem assignments_render (digest : Bool) {ps : List (Text × Text)} (hne : ps ≠ [])
    (h : ∀ p ∈ ps, isToken p.1 = true) :
    assignments (List.intercalate ", ".toList
      (ps.map fun (name, value) => renderParameter digest name value)) = ps :=
  assignments_spelled hne fun p hp => ⟨h p hp, spells_spelling digest p.1 p.2⟩

/-- Setting parameters in order appends them. -/
theorem setAll_of_sorted (scheme : Text) (done : List (Text × Text)) {ps : List (Text × Text)}
    (hs : Sorted (done ++ ps)) (hlower : ∀ p ∈ ps, lower p.1 = p.1)
    (hlegal : ∀ p ∈ ps, parameterFault? p.1 p.2 = none)
    (hlength : (done ++ ps).length ≤ maxParameters) :
    setAll ⟨scheme, done⟩ ps = .ok ⟨scheme, done ++ ps⟩ := by
  induction ps generalizing done with
  | nil => rw [List.append_nil]; rfl
  | cons p rest ih =>
    -- All names so far are below the next one, so it goes to the end.
    have hbelow : ∀ q ∈ done, q.1 < p.1 := fun q hq =>
      (List.pairwise_append.mp hs).2.2 q hq p List.mem_cons_self
    have hset : (set ⟨scheme, done⟩ p.1 p.2).result = .ok ⟨scheme, done ++ [p]⟩ := by
      refine result_store_eq_ok_iff.mpr ⟨hlegal p List.mem_cons_self, fun _ => rfl, fun _ => ?_, ?_⟩
      · simp only [List.length_append, List.length_cons] at hlength
        show done.length < maxParameters
        omega
      · rw [hlower p List.mem_cons_self, put_of_forall_lt hbelow]
    rw [List.append_cons] at hs hlength ⊢
    change (set ⟨scheme, done⟩ p.1 p.2).result.bind (fun h => setAll h rest) = _
    rw [hset]
    exact ih _ hs (fun q hq => hlower q (List.mem_cons_of_mem _ hq))
      (fun q hq => hlegal q (List.mem_cons_of_mem _ hq)) hlength

/-- Behind a scheme and a space the assignments are stored. -/
theorem parse_padded {lead scheme : Text} (hlead : ∀ c ∈ lead, isBlank c = true)
    (hne : scheme ≠ []) (hscheme : IsTrimmed scheme) (hspace : ' ' ∉ scheme) (rest : Text) :
    parse (lead ++ (scheme ++ ' ' :: rest)) =
      (ofScheme scheme).bind (·.setAll (assignments rest)) := by
  -- The text starts with the scheme, and the first space is the one behind it.
  have hstart : trimStart (scheme ++ ' ' :: rest) = scheme ++ ' ' :: rest := by
    obtain ⟨c, tail, rfl⟩ := List.exists_cons_of_ne_nil hne
    exact trimStart_eq_self hscheme.head
  rw [parse, trimStart_append hlead, hstart, splitFirst?_append_cons hspace]
  simp only [trim_eq_self hscheme]

theorem parse_append {scheme : Text} (h : isToken scheme = true) (rest : Text) :
    parse (scheme ++ ' ' :: rest) = (ofScheme scheme).bind (·.setAll (assignments rest)) :=
  parse_padded (List.forall_mem_nil _) (isToken_iff.mp h).1 (isTrimmed_of_isToken h)
    (not_mem_of_isToken h (by decide)) rest

/-- A well-formed header with a parameter is read back from what is printed for it. -/
theorem WellFormed.parse_render {h : Header} (hw : WellFormed h) (hne : h.parameters ≠ []) :
    parse h.render = .ok h := by
  have htoken : ∀ p ∈ h.parameters, isToken p.1 = true := fun p hp =>
    (parameterFault?_eq_none_iff.mp (hw.legal p hp)).2.1
  rw [render, if_neg hne, parse_append hw.scheme_isToken,
    assignments_render h.isDigest hne htoken,
    ofScheme_eq_ok_iff.mpr ⟨hw.scheme_le, hw.scheme_isToken, rfl⟩]
  exact setAll_of_sorted h.scheme [] hw.sorted hw.lower_name hw.legal hw.length_le

/-- Without parameters only the scheme is printed, which is no header. -/
theorem WellFormed.parse_render_of_nil {h : Header} (hw : WellFormed h) (he : h.parameters = []) :
    parse h.render = .error .missingParameters := by
  have hspace : ' ' ∉ h.scheme := not_mem_of_isToken hw.scheme_isToken (by decide)
  rw [parse, render, if_pos he, trimStart_eq_self (isTrimmed_of_isToken hw.scheme_isToken).head,
    splitFirst?_of_not_mem hspace]

/-- **Printing and reading are inverse.**  Every header that calls can build, hence every header
that is read from a text, is read back unchanged from what is printed for it, provided that it has
a parameter; without one, what is printed is refused. -/
theorem parse_render_of_reachable :
    (∀ h, Reachable h → h.parameters ≠ [] → parse h.render = .ok h) ∧
      (∀ h, Reachable h → h.parameters = [] → parse h.render = .error .missingParameters) ∧
      ∀ s h, parse s = .ok h → Reachable h :=
  ⟨fun _ hr hne => hr.wellFormed.parse_render hne,
    fun _ hr he => hr.wellFormed.parse_render_of_nil he, fun _ _ hp => reachable_of_parse hp⟩

/-- A value full of marks, an empty value, a name set twice in two spellings, and a scheme in mixed
letter case. -/
theorem parse_render_of_mixed_parameters :
    Reachable ⟨"DiGest".toList, [("nonce".toList, " a\\\"b,=\t".toList), ("x".toList, [])]⟩ ∧
      render ⟨"DiGest".toList, [("nonce".toList, " a\\\"b,=\t".toList), ("x".toList, [])]⟩ =
        "DiGest nonce=\" a\\\\\\\"b,=\t\", x=\"\"".toList ∧
      parse "DiGest nonce=\" a\\\\\\\"b,=\t\", x=\"\"".toList =
        .ok ⟨"DiGest".toList, [("nonce".toList, " a\\\"b,=\t".toList), ("x".toList, [])]⟩ := by
  have hr : Reachable
      ⟨"DiGest".toList, [("nonce".toList, " a\\\"b,=\t".toList), ("x".toList, [])]⟩ :=
    ⟨"DiGest".toList, ⟨"DiGest".toList, []⟩, by decide,
      [⟨false, "X".toList, []⟩, ⟨false, "Nonce".toList, "1".toList⟩,
        ⟨true, "NONCE".toList, " a\\\"b,=\t".toList⟩], by decide⟩
  exact ⟨hr, by decide, parse_render_of_reachable.1 _ hr (by decide)⟩

end ProxyAuth.Header
