import Mathlib.Tactic
import ProxyAuth.Proofs.Fallible
import ProxyAuth.Proofs.Feed
import ProxyAuth.Proofs.HeadLines
import ProxyAuth.Proofs.Utf8
import ProxyAuth.RequestHead

/-!
# Reading a head that was written

A head is written from a request line of three words and header lines.  Its bytes are a head as a
feed takes it off, and the request that is read from them is the one that was written.

* `Parts`, `Parts.Legal`: what a head is written from;
* `isHead_render`: its first blank line is at the end;
* `IsHeadOf`, `IsHeadOf.parseText?_eq`: a text that starts with such a head is read;
* `parse?_render`: method, target and authorization header are found again;
* `authorization?_of_last`: of several authorization headers the last counts.
-/

namespace ProxyAuth.RequestHead

open Text
open Page (headLines)

/-- What a head is written from. -/
structure Parts where
  method : Text
  target : Text
  version : Text
  /-- The header lines. -/
  fields : List Text
  deriving DecidableEq

namespace Parts

/-- The request line. -/
def requestLine (p : Parts) : Text := p.method ++ ' ' :: (p.target ++ ' ' :: p.version)

/-- The head that is written, up to and including the blank line. -/
def render (p : Parts) : Text := headLines (p.requestLine :: p.fields ++ [[]])

/-- A word of a request line. -/
structure IsWord (word : Text) : Prop where
  ne_nil : word ≠ []
  not_mem : ' ' ∉ word
  unbroken : ¬ crlf <:+: word

/-- Every word and every header line keeps to its place. -/
structure Legal (p : Parts) : Prop where
  method : IsWord p.method
  target : IsWord p.target
  version : IsWord p.version
  version_prefix : "HTTP/1.".toList <+: p.version
  fields : ∀ line ∈ p.fields, ':' ∈ line ∧ ¬ crlf <:+: line

variable {p : Parts}

theorem Legal.isLine_requestLine (h : p.Legal) : IsLine p.requestLine where
  ne_nil := by simp [requestLine]
  unbroken hinside := by
    rcases infix_append_cons (by decide) hinside with hinside | hinside
    · exact h.method.unbroken hinside
    · rcases infix_append_cons (by decide) hinside with hinside | hinside
      · exact h.target.unbroken hinside
      · exact h.version.unbroken hinside

theorem Legal.isLine (h : p.Legal) : ∀ line ∈ p.requestLine :: p.fields, IsLine line := by
  intro line hline
  rcases List.mem_cons.mp hline with rfl | hline
  · exact h.isLine_requestLine
  · exact ⟨List.ne_nil_of_mem (h.fields line hline).1, (h.fields line hline).2⟩

/-! ### Framing -/

/-- The first blank line of a head is at its end. -/
theorem isHead_render (h : p.Legal) : Feed.IsHead (Utf8.encode p.render) := by
  have hrender : p.render = headLines (p.requestLine :: p.fields) ++ crlf :=
    headLines_append (p.requestLine :: p.fields) [[]]
  have hblank : Feed.blankLine = Utf8.encode (crlf ++ crlf) := by decide
  rw [Feed.IsHead, hblank, hrender]
  constructor
  · -- The line before the blank one is ended by CR LF as well.
    obtain ⟨front, hfront⟩ := suffix_headLines (List.cons_ne_nil p.requestLine p.fields)
    rw [← hfront, List.append_assoc, Utf8.encode_append front]
    exact List.suffix_append _ _
  · intro hinside
    refine not_infix_headLines h.isLine (Utf8.infix_of_encode (by decide) (hinside.trans ?_))
    have hlast : Utf8.encode crlf = Utf8.encode ['\r'] ++ [10] := by decide
    rw [Utf8.encode_append, hlast, ← List.append_assoc, List.dropLast_concat, Utf8.encode_append]

/-! ### Reading -/

theorem requestLine?_requestLine (h : p.Legal) :
    requestLine? p.requestLine = some (p.method, p.target) := by
  have hsplit : p.requestLine.splitOn ' ' = [p.method, p.target, p.version] := by
    rw [requestLine, List.splitOn_append_cons_self_of_not_mem h.method.not_mem,
      List.splitOn_append_cons_self_of_not_mem h.target.not_mem,
      List.splitOn_eq_singleton h.version.not_mem]
  rw [requestLine?, hsplit]
  simp only
  rw [if_pos ⟨h.method.ne_nil, h.target.ne_nil, List.isPrefixOf_iff_prefix.mpr h.version_prefix⟩]

/-- A line is a field if it has a colon. -/
theorem isSome_field? {line : Text} (h : ':' ∈ line) : (field? line).isSome := by
  rw [field?, Option.isSome_map, Option.isSome_iff_ne_none, Ne, splitFirst?_eq_none_iff, not_not]
  obtain ⟨front, back, rfl⟩ := List.append_of_mem h
  exact ⟨front, back, by simp⟩

/-- The text is a head of these parts: the request line and the header lines come first, and behind
them an empty line or nothing. -/
structure IsHeadOf (head : Text) (p : Parts) : Prop where
  legal : p.Legal
  cut : ∃ more, IsCut head (p.requestLine :: p.fields ++ more) ∧ ∀ line ∈ more.head?, line = []

/-- A head is read, whatever stands behind its empty line. -/
theorem IsHeadOf.parseText?_eq {head : Text} (h : IsHeadOf head p) :
    parseText? head = some ⟨p.method, p.target, authorization? (p.fields.filterMap field?)⟩ := by
  obtain ⟨hlegal, more, hcut, hmore⟩ := h
  have hpieces : crlfPieces head = p.requestLine :: (p.fields ++ more) := crlfPieces_eq_iff.mpr hcut
  have hfields : (p.fields ++ more).takeWhile (· ≠ []) = p.fields := by
    have hnil : more.takeWhile (· ≠ []) = [] := by
      cases more with
      | nil => rfl
      | cons line more => exact List.takeWhile_cons_of_neg (by simp [hmore line rfl])
    rw [List.takeWhile_append_of_pos, hnil, List.append_nil]
    intro line hline
    simpa using List.ne_nil_of_mem (hlegal.fields line hline).1
  have hread : p.fields.mapM field? = some (p.fields.filterMap field?) :=
    mapM_eq_some_filterMap fun line hline => isSome_field? (hlegal.fields line hline).1
  rw [parseText?, hpieces]
  simp only [requestLine?_requestLine hlegal, hfields, hread]
  rfl

/-- What is written is a head, with any text behind it. -/
theorem isHeadOf_render (h : p.Legal) (rest : Text) : IsHeadOf (p.render ++ rest) p := by
  refine ⟨h, [] :: crlfPieces rest, crlfPieces_eq_iff.mp ?_, by simp⟩
  have hall : ∀ line ∈ p.requestLine :: p.fields ++ [[]], ¬ crlf <:+: line := by
    intro line hline
    rcases List.mem_append.mp hline with hline | hline
    · exact (h.isLine line hline).unbroken
    · rw [List.mem_singleton.mp hline]
      decide
  rw [render, crlfPieces_headLines hall, List.append_assoc]
  rfl

/-- **A head that was written is read back.** -/
theorem parse?_render (h : p.Legal) :
    parse? (Utf8.encode p.render) =
      some ⟨p.method, p.target, authorization? (p.fields.filterMap field?)⟩ := by
  have hhead := isHeadOf_render h []
  rw [List.append_nil] at hhead
  rw [parse?, Utf8.decode?_encode, Option.bind_some, hhead.parseText?_eq]

end Parts

/-! ### The authorization header -/

/-- The header line that carries an authorization header. -/
def authorizationLine (value : Text) : Text := "Proxy-Authorization: ".toList ++ value

theorem field?_authorizationLine {value : Text} (h : IsTrimmed value) :
    field? (authorizationLine value) = some ("Proxy-Authorization".toList, value) := by
  have hname : "Proxy-Authorization: ".toList = "Proxy-Authorization".toList ++ [':', ' '] := by
    decide +kernel
  have hline : authorizationLine value = "Proxy-Authorization".toList ++ ':' :: (' ' :: value) :=
    calc authorizationLine value = "Proxy-Authorization".toList ++ [':', ' '] ++ value :=
          congrArg (· ++ value) hname
      _ = _ := List.append_assoc _ _ _
  rw [field?, hline, splitFirst?_append_cons (by decide)]
  simp only [Option.map_some, trim_space_cons h]

/-- Of several authorization headers the last counts. -/
theorem authorization?_of_last {before after : List (Text × Text)} {field : Text × Text}
    (h : isAuthorization field = true) (hafter : ∀ other ∈ after, isAuthorization other = false) :
    authorization? (before ++ field :: after) = some field.2 := by
  have hnone : after.filter isAuthorization = [] :=
    List.filter_eq_nil_iff.mpr fun other hother => by simp [hafter other hother]
  rw [authorization?, List.filter_append, List.filter_cons_of_pos h, hnone,
    List.getLast?_append_cons]
  rfl

end ProxyAuth.RequestHead
