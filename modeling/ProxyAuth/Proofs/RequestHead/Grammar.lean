import Mathlib.Tactic
import ProxyAuth.Proofs.RequestHead

/-!
# The grammar of heads

A head is a text whose first line is a request line and whose further lines, up to the first empty
one, are header lines.  A request line has three words, a header line has a colon, and that is all
that is asked of them.  What is read are the method, the target, and the value of the last header
line that carries an authorization header.

* `Carries`, `LastCarried`: which value a header line carries, and which of them counts;
* `parseText?_eq_some_iff`: one text;
* `reads_exactly_heads`: which bytes are read, as which request, and what makes no difference.
-/

namespace ProxyAuth.RequestHead

open Text
open Parts (IsHeadOf)

variable {line value method target head : Text} {lines : List Text} {p : Parts}
  {request : Request} {authorization : Option Text}

/-! ### Request lines -/

/-- A request line that is read has three words. -/
theorem exists_words_of_requestLine? (h : requestLine? line = some (method, target)) :
    ∃ version, line = method ++ ' ' :: (target ++ ' ' :: version) ∧
      "HTTP/1.".toList <+: version ∧ method ≠ [] ∧ target ≠ [] ∧
      ∀ word ∈ [method, target, version], ' ' ∉ word := by
  unfold requestLine? at h
  split at h
  · rename_i method' target' version hwords
    split_ifs at h with hlegal
    obtain ⟨rfl, rfl⟩ := Prod.mk.inj (Option.some.inj h)
    obtain ⟨hmethod, htarget, hversion⟩ := hlegal
    have hline : [' '].intercalate (line.splitOn ' ') = line := List.intercalate_splitOn ' '
    refine ⟨version, ?_, List.isPrefixOf_iff_prefix.mp hversion, hmethod, htarget, ?_⟩
    · rw [← hline, hwords]
      simp [List.intercalate_cons_cons]
    · rw [← hwords]
      exact fun word => not_mem_of_mem_splitOn
  · cases h

/-- Without a line end in it such a line is the request line of some parts. -/
theorem exists_parts_of_requestLine? (h : requestLine? line = some (method, target))
    (hline : ¬ crlf <:+: line) (hlines : ∀ field ∈ lines, ':' ∈ field ∧ ¬ crlf <:+: field) :
    ∃ version, Parts.requestLine ⟨method, target, version, lines⟩ = line ∧
      Parts.Legal ⟨method, target, version, lines⟩ := by
  obtain ⟨version, rfl, hversion, hmethod, htarget, hspace⟩ := exists_words_of_requestLine? h
  have hinside (word : Text) (hword : word <:+: method ++ ' ' :: (target ++ ' ' :: version)) :
      ¬ crlf <:+: word := fun hcrlf => hline (hcrlf.trans hword)
  refine ⟨version, rfl, ⟨hmethod, hspace _ (by simp), hinside _ ?_⟩,
    ⟨htarget, hspace _ (by simp), hinside _ ?_⟩, ⟨?_, hspace _ (by simp), hinside _ ?_⟩, hversion,
    hlines⟩
  · exact (List.prefix_append _ _).isInfix
  · exact ⟨method ++ [' '], ' ' :: version, by simp⟩
  · rintro rfl
    exact absurd hversion (by decide)
  · exact ⟨method ++ ' ' :: (target ++ [' ']), [], by simp⟩

/-! ### Authorization headers -/

/-- The header line carries an authorization header with that value, which is not blank. -/
inductive Carries : Text → Text → Prop
  | intro {name spelled : Text} (hname : ':' ∉ name)
      (hauthorization : sameIgnoringCase name authorizationName = true)
      (hvalue : trim spelled ≠ []) : Carries (name ++ ':' :: spelled) (trim spelled)

/-- The header line carries an authorization header. -/
def Counts (line : Text) : Prop := ∃ value, Carries line value

/-- The value of the last line that carries one, if any line does. -/
inductive LastCarried : List Text → Option Text → Prop
  | none {lines : List Text} (h : ∀ line ∈ lines, ¬ Counts line) : LastCarried lines none
  | some {before after : List Text} {line value : Text} (h : Carries line value)
      (hafter : ∀ other ∈ after, ¬ Counts other) :
      LastCarried (before ++ line :: after) (some value)

/-- What a header line carries. -/
def carried? (line : Text) : Option Text := ((field? line).filter isAuthorization).map (·.2)

theorem field?_of_not_mem (h : ':' ∉ line) : field? line = none := by
  rw [field?, splitFirst?_of_not_mem h]
  rfl

theorem carried?_eq_some_iff : carried? line = some value ↔ Carries line value := by
  by_cases hcolon : ':' ∈ line
  · obtain ⟨name, spelled, rfl, hname⟩ := List.eq_append_cons_of_mem hcolon
    have hcarried : carried? (name ++ ':' :: spelled) = some value ↔
        (sameIgnoringCase name authorizationName = true ∧ trim spelled ≠ []) ∧
          trim spelled = value := by
      rw [carried?, field?, splitFirst?_append_cons hname]
      simp [Option.filter_some, isAuthorization]
    rw [hcarried]
    constructor
    · rintro ⟨⟨hauthorization, hvalue⟩, rfl⟩
      exact .intro hname hauthorization hvalue
    · generalize hline : name ++ ':' :: spelled = line
      rintro ⟨hname', hauthorization, hvalue⟩
      obtain ⟨rfl, rfl⟩ := append_cons_inj hname hname' hline
      exact ⟨⟨hauthorization, hvalue⟩, rfl⟩
  · rw [carried?, field?_of_not_mem hcolon]
    refine iff_of_false (Option.some_ne_none value).symm ?_
    rintro ⟨hname, hauthorization, hvalue⟩
    exact hcolon (by simp)

theorem isSome_carried?_iff : (carried? line).isSome ↔ Counts line := by
  rw [Option.isSome_iff_exists]
  exact exists_congr fun _ => carried?_eq_some_iff

theorem carried?_eq_none_iff : carried? line = none ↔ ¬ Counts line := by
  rw [← isSome_carried?_iff, Option.not_isSome_iff_eq_none]

instance (line : Text) : Decidable (Counts line) := decidable_of_iff _ isSome_carried?_iff

theorem authorization?_filterMap (lines : List Text) :
    authorization? (lines.filterMap field?) = (lines.filterMap carried?).getLast? := by
  rw [authorization?, List.filter_filterMap, ← List.getLast?_map, List.map_filterMap]
  rfl

/-- What is read of header lines is what the last of them carries. -/
theorem authorization?_eq_iff :
    authorization? (lines.filterMap field?) = authorization ↔ LastCarried lines authorization := by
  rw [authorization?_filterMap]
  cases authorization with
  | none =>
    rw [List.getLast?_eq_none_iff, List.filterMap_eq_nil_iff]
    simp only [carried?_eq_none_iff]
    exact ⟨.none, fun h => by cases h; assumption⟩
  | some value =>
    rw [getLast?_filterMap_eq_some_iff]
    simp only [carried?_eq_some_iff, carried?_eq_none_iff]
    constructor
    · rintro ⟨before, line, after, rfl, hcarries, hafter⟩
      exact .some hcarries hafter
    · intro h
      cases h with
      | some hcarries hafter => exact ⟨_, _, _, rfl, hcarries, hafter⟩

/-! ### Heads -/

/-- A text that is read is a head. -/
theorem exists_isHeadOf_of_parseText? (h : parseText? head = some request) :
    ∃ p, IsHeadOf head p ∧
      request = ⟨p.method, p.target, authorization? (p.fields.filterMap field?)⟩ := by
  unfold parseText? at h
  split at h
  · cases h
  rename_i first rest hpieces
  obtain ⟨⟨method, target⟩, hfirst, h⟩ := Option.bind_eq_some_iff.mp h
  obtain ⟨fields, hfields, h⟩ := Option.bind_eq_some_iff.mp h
  have hcut : IsCut head (first :: rest) := crlfPieces_eq_iff.mp hpieces
  have hcolon : ∀ line ∈ rest.takeWhile (· ≠ []), ':' ∈ line := by
    intro line hline
    by_contra hcolon
    rw [mapM_eq_none hline (field?_of_not_mem hcolon)] at hfields
    cases hfields
  have hlines : ∀ line ∈ rest.takeWhile (· ≠ []), ':' ∈ line ∧ ¬ crlf <:+: line := fun line hline =>
    ⟨hcolon line hline,
      hcut.unbroken line (List.mem_cons_of_mem _ ((List.takeWhile_prefix _).subset hline))⟩
  obtain ⟨version, hrequestLine, hlegal⟩ :=
    exists_parts_of_requestLine? hfirst (hcut.unbroken first List.mem_cons_self) hlines
  refine ⟨_, ⟨hlegal, rest.dropWhile (· ≠ []), ?_, ?_⟩, ?_⟩
  · rwa [hrequestLine, List.cons_append, List.takeWhile_append_dropWhile]
  · intro line hline
    have hnot := List.head?_dropWhile_not (fun line : Text => line ≠ []) rest
    rw [hline] at hnot
    simpa using hnot
  · rw [mapM_eq_some_filterMap fun line hline => Parts.isSome_field? (hcolon line hline)] at hfields
    rw [← Option.some.inj h, Option.some.inj hfields]

/-- A text is read exactly if it is a head. -/
theorem parseText?_eq_some_iff : parseText? head = some request ↔
    ∃ p, IsHeadOf head p ∧ request.method = p.method ∧ request.target = p.target ∧
      LastCarried p.fields request.authorization := by
  constructor
  · intro h
    obtain ⟨p, hhead, rfl⟩ := exists_isHeadOf_of_parseText? h
    exact ⟨p, hhead, rfl, rfl, authorization?_eq_iff.mp rfl⟩
  · rintro ⟨p, hhead, hmethod, htarget, hlast⟩
    rw [hhead.parseText?_eq, authorization?_eq_iff.mpr hlast, ← hmethod, ← htarget]

/-- Bytes are read exactly if they are those of a head. -/
theorem parse?_eq_some_iff {bytes : Bytes} : parse? bytes = some request ↔
    ∃ head p, bytes = Utf8.encode head ∧ IsHeadOf head p ∧ request.method = p.method ∧
      request.target = p.target ∧ LastCarried p.fields request.authorization := by
  rw [parse?, Option.bind_eq_some_iff]
  simp only [Utf8.decode?_eq_some_iff, parseText?_eq_some_iff, exists_and_left]

/-! ### What makes no difference -/

/-- Header lines that carry nothing can be left out. -/
theorem filterMap_carried?_filter (lines : List Text) :
    (lines.filter fun line => Counts line).filterMap carried? = lines.filterMap carried? := by
  rw [List.filterMap_filter]
  refine List.filterMap_congr fun line _ => ?_
  by_cases hcounts : Counts line
  · simp [hcounts]
  · simp [hcounts, carried?_eq_none_iff.mpr hcounts]

/-- Heads with the same request line but for the version, and with the same lines that count, are
read alike, whatever stands between these lines and behind the heads. -/
theorem parse?_render_append_congr {p p' : Parts} (h : p.Legal) (h' : p'.Legal)
    (hmethod : p.method = p'.method) (htarget : p.target = p'.target)
    (hcounts : (p.fields.filter fun line => Counts line) = p'.fields.filter fun line => Counts line)
    (rest rest' : Text) :
    parse? (Utf8.encode (p.render ++ rest)) = parse? (Utf8.encode (p'.render ++ rest')) := by
  have hread : authorization? (p.fields.filterMap field?) =
      authorization? (p'.fields.filterMap field?) := by
    rw [authorization?_filterMap, authorization?_filterMap, ← filterMap_carried?_filter, hcounts,
      filterMap_carried?_filter]
  rw [parse?, parse?, Utf8.decode?_encode, Utf8.decode?_encode, Option.bind_some, Option.bind_some,
    (Parts.isHeadOf_render h rest).parseText?_eq, (Parts.isHeadOf_render h' rest').parseText?_eq,
    hmethod, htarget, hread]

/-- Nothing behind a blank line is looked at, also where the head is refused. -/
theorem parseText?_append_of_blank (front rest : Text) :
    parseText? (front ++ (crlf ++ crlf) ++ rest) = parseText? (front ++ (crlf ++ crlf)) := by
  have hpieces (rest : Text) : crlfPieces (front ++ (crlf ++ crlf) ++ rest) =
      crlfPieces front ++ [] :: crlfPieces rest := by
    rw [List.append_assoc]
    exact crlfPieces_append front ('\r' :: '\n' :: rest)
  have htake (lines more : List Text) :
      (lines ++ [] :: more).takeWhile (· ≠ []) = lines.takeWhile (· ≠ []) := by
    induction lines with
    | nil => rfl
    | cons line lines ih => rw [List.cons_append, List.takeWhile_cons, List.takeWhile_cons, ih]
  obtain ⟨first, lines, hfirst⟩ := List.exists_cons_of_ne_nil (crlfPieces_ne_nil front)
  have hempty := hpieces []
  rw [List.append_nil] at hempty
  rw [parseText?, parseText?, hpieces, hempty, hfirst]
  simp only [List.cons_append, htake]

/-- **Exactly the heads are read.**  Bytes are read if they are those of a text that starts with a
request line and header lines, each with a colon, up to the first empty line or the end; and then as
its method, its target and the trimmed value of the last authorization header that is not blank.  So
every head that is written is read back, with any text behind it.  Its version, its other header
lines and their order make no difference, and no head, not even one that is refused, is told by what
stands behind its blank line. -/
theorem reads_exactly_heads :
    (∀ bytes request, parse? bytes = some request ↔ ∃ head p, bytes = Utf8.encode head ∧
      IsHeadOf head p ∧ request.method = p.method ∧ request.target = p.target ∧
        LastCarried p.fields request.authorization) ∧
    (∀ bytes, (parse? bytes).isSome ↔ ∃ head p, bytes = Utf8.encode head ∧ IsHeadOf head p) ∧
    (∀ p : Parts, p.Legal → ∀ rest : Text, ∃ request,
      parse? (Utf8.encode (p.render ++ rest)) = some request ∧ request.method = p.method ∧
        request.target = p.target ∧ LastCarried p.fields request.authorization) ∧
    (∀ p p' : Parts, p.Legal → p'.Legal → p.method = p'.method → p.target = p'.target →
      (p.fields.filter fun line => Counts line) = (p'.fields.filter fun line => Counts line) →
      ∀ rest rest' : Text,
        parse? (Utf8.encode (p.render ++ rest)) = parse? (Utf8.encode (p'.render ++ rest'))) ∧
    ∀ front rest : Text, parse? (Utf8.encode (front ++ (crlf ++ crlf) ++ rest)) =
      parse? (Utf8.encode (front ++ (crlf ++ crlf))) := by
  refine ⟨fun _ _ => parse?_eq_some_iff, fun bytes => ⟨fun h => ?_, ?_⟩, fun p h rest => ?_,
    fun _ _ => parse?_render_append_congr, fun front rest => ?_⟩
  · obtain ⟨request, hrequest⟩ := Option.isSome_iff_exists.mp h
    obtain ⟨head, p, hbytes, hhead, -⟩ := parse?_eq_some_iff.mp hrequest
    exact ⟨head, p, hbytes, hhead⟩
  · rintro ⟨head, p, rfl, hhead⟩
    rw [parse?, Utf8.decode?_encode, Option.bind_some, hhead.parseText?_eq]
    rfl
  · have hlast : LastCarried p.fields (authorization? (p.fields.filterMap field?)) :=
      authorization?_eq_iff.mp rfl
    refine ⟨⟨p.method, p.target, _⟩, parse?_eq_some_iff.mpr ?_, rfl, rfl, hlast⟩
    exact ⟨_, p, rfl, Parts.isHeadOf_render h rest, rfl, rfl, hlast⟩
  · simp only [parse?, Utf8.decode?_encode, Option.bind_some, parseText?_append_of_blank]

/-- A lone carriage return in the target, three authorization headers of which the last is blank,
and the same lines in another order in front of a text that is no header line. -/
theorem reads_head_of_three_authorizations :
    let first := "Proxy-Authorization: a".toList
    let second := "proxy-AUTHORIZATION:\tBasic b:c \t".toList
    let p : Parts := ⟨"GET".toList, "/\r".toList, "HTTP/1.".toList,
      [first, second, "Host: x".toList, "Proxy-Authorization: ".toList]⟩
    let p' : Parts := ⟨"GET".toList, "/\r".toList, "HTTP/1.1".toList, [first, ":".toList, second]⟩
    let bytes := Utf8.encode (p.render ++ "no colon".toList)
    p.Legal ∧ p'.Legal ∧
      parse? bytes = some ⟨"GET".toList, "/\r".toList, some "Basic b:c".toList⟩ ∧
      parse? bytes = parse? (Utf8.encode (p'.render ++ [])) := by
  intro first second p p' bytes
  have hword (word : Text) (h : word ≠ [] ∧ ' ' ∉ word ∧ ¬ crlf <:+: word) : Parts.IsWord word :=
    ⟨h.1, h.2.1, h.2.2⟩
  have hlegal : p.Legal :=
    ⟨hword _ (by decide), hword _ (by decide), hword _ (by decide), by decide, by decide⟩
  have hlegal' : p'.Legal :=
    ⟨hword _ (by decide), hword _ (by decide), hword _ (by decide), by decide, by decide⟩
  obtain ⟨hiff, -, -, hcongr, -⟩ := reads_exactly_heads
  refine ⟨hlegal, hlegal', (hiff _ _).mpr ?_, ?_⟩
  · refine ⟨_, p, rfl, Parts.isHeadOf_render hlegal _, rfl, rfl, ?_⟩
    exact authorization?_eq_iff.mp (by decide)
  · exact hcongr p p' hlegal hlegal' rfl rfl (by decide) _ _

end ProxyAuth.RequestHead
