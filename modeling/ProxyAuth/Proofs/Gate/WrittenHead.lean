import Mathlib.Tactic
import ProxyAuth.Proofs.Gate.Effects
import ProxyAuth.Proofs.Header.Padding
import ProxyAuth.Proofs.RequestHead

/-!
# A header value by itself and in a head

A header value reaches the gate by itself, or out of a head.  Reading the head trims the value, and
drops it if nothing is left; the gate drops blank values as well, but checks the others as they are.
What comes of it is the same in either way, apart from the wording in the log.

* `kind_verdict?_readValue`: what is read of a value has a verdict of the same kind;
* `AuthorizedHead.parse?_render`: what is read from a head with one authorization header;
* `effects_of_head_eq_of_value`: a value has the same effects by itself and in a head.
-/

namespace ProxyAuth

open Text

/-- What is read of a header value in a head: the trimmed value, unless it is blank. -/
def RequestHead.readValue (value : Text) : Option Text :=
  if trim value = [] then none else some (trim value)

namespace Gate

open RequestHead (readValue)

/-- What is read of a value in a head has a verdict of the same kind as the value. -/
theorem kind_verdict?_readValue (policy : Policy) (now : WallTime) (link : Link)
    (method target value : Text) :
    (verdict? policy now link ⟨method, target, readValue value⟩).map Verdict.kind =
      (verdict? policy now link ⟨method, target, some value⟩).map Verdict.kind := by
  unfold verdict? header? readValue
  split_ifs with hblank
  · simp [Option.filter_some, hblank]
  · have htrim : trim (trim value) ≠ [] := by rwa [trim_eq_self (isTrimmed_trim value)]
    simp only [Option.filter_some, ne_eq, hblank, htrim, not_false_eq_true, decide_true, if_true,
      Option.map_some]
    exact congrArg some (Verdict.kind_ofText_trim ..)

end Gate

/-! ### A head with one authorization header -/

namespace RequestHead

/-- The name of a header line: what stands in front of its first colon. -/
def lineName (line : Text) : Text := line.takeWhile (· ≠ ':')

theorem field?_eq_some_lineName {line : Text} (h : ':' ∈ line) :
    ∃ value, field? line = some (lineName line, value) := by
  obtain ⟨name, value, rfl, hname⟩ := List.eq_append_cons_of_mem h
  have hlineName : lineName (name ++ ':' :: value) = name := by
    have hall : ∀ c ∈ name, decide (c ≠ ':') = true := fun c hc => by
      rw [decide_eq_true_eq]
      rintro rfl
      exact hname hc
    rw [lineName, List.takeWhile_append_of_pos hall, List.takeWhile_cons_of_neg (by simp),
      List.append_nil]
  refine ⟨trim value, ?_⟩
  rw [field?, splitFirst?_append_cons hname, hlineName]
  rfl

/-- A head in which one line carries an authorization header. -/
structure AuthorizedHead where
  method : Text
  target : Text
  version : Text
  /-- The header lines in front of the authorization header. -/
  before : List Text
  name : Text
  value : Text
  /-- The header lines behind it. -/
  after : List Text
  deriving DecidableEq

namespace AuthorizedHead

/-- The head as a request line and header lines. -/
def parts (h : AuthorizedHead) : Parts :=
  ⟨h.method, h.target, h.version, h.before ++ (h.name ++ ':' :: h.value) :: h.after⟩

/-- Every part keeps to its place, the name is that of authorization headers, in any letter case,
and no other line has such a name. -/
structure Legal (h : AuthorizedHead) : Prop where
  method : Parts.IsWord h.method
  target : Parts.IsWord h.target
  version : Parts.IsWord h.version
  version_prefix : "HTTP/1.".toList <+: h.version
  name : sameIgnoringCase h.name authorizationName = true
  value : ¬ crlf <:+: h.value
  others : ∀ line ∈ h.before ++ h.after, (':' ∈ line ∧ ¬ crlf <:+: line) ∧
    sameIgnoringCase (lineName line) authorizationName = false

variable {h : AuthorizedHead}

/-- A name of authorization headers has no marks. -/
theorem Legal.not_mem_name (hl : h.Legal) {c : Char} (hlower : c.toLower = c)
    (hc : c ∉ lower authorizationName) : c ∉ h.name := fun hmem => by
  rw [← sameIgnoringCase_iff.mp hl.name] at hc
  exact hc (List.mem_map.mpr ⟨c, hmem, hlower⟩)

theorem Legal.parts_legal (hl : h.Legal) : h.parts.Legal where
  method := hl.method
  target := hl.target
  version := hl.version
  version_prefix := hl.version_prefix
  fields line hline := by
    rcases List.mem_append.mp hline with hline | hline
    · exact (hl.others line (List.mem_append_left _ hline)).1
    · rcases List.mem_cons.mp hline with rfl | hline
      · refine ⟨by simp, fun hinside => ?_⟩
        rcases infix_append_cons (by decide) hinside with hinside | hinside
        · exact hl.not_mem_name (c := '\n') (by decide) (by decide) (hinside.subset (by decide))
        · exact hl.value hinside
      · exact (hl.others line (List.mem_append_right _ hline)).1

/-- No other line is an authorization header. -/
theorem Legal.isAuthorization_eq_false (hl : h.Legal) {lines : List Text}
    (hlines : lines ⊆ h.before ++ h.after) :
    ∀ field ∈ lines.filterMap field?, isAuthorization field = false := by
  intro field hfield
  obtain ⟨line, hline, hread⟩ := List.mem_filterMap.mp hfield
  obtain ⟨⟨hcolon, -⟩, hname⟩ := hl.others line (hlines hline)
  obtain ⟨value, hvalue⟩ := field?_eq_some_lineName hcolon
  obtain rfl : (lineName line, value) = field := Option.some.inj (hvalue.symm.trans hread)
  rw [isAuthorization, hname, Bool.false_and]

/-- The value is read, trimmed, unless it is blank. -/
theorem Legal.authorization?_eq (hl : h.Legal) :
    authorization? (h.parts.fields.filterMap field?) = readValue h.value := by
  have hbefore := hl.isAuthorization_eq_false (List.subset_append_left h.before h.after)
  have hafter := hl.isAuthorization_eq_false (List.subset_append_right h.before h.after)
  have hfield : field? (h.name ++ ':' :: h.value) = some (h.name, trim h.value) := by
    rw [field?, splitFirst?_append_cons (hl.not_mem_name (by decide) (by decide))]
    rfl
  have hfields : h.parts.fields.filterMap field? =
      h.before.filterMap field? ++ (h.name, trim h.value) :: h.after.filterMap field? := by
    rw [parts, List.filterMap_append, List.filterMap_cons_some hfield]
  rw [hfields, readValue]
  split_ifs with hblank
  · have hnone : isAuthorization (h.name, trim h.value) = false := by simp [isAuthorization, hblank]
    have hall : (h.before.filterMap field? ++
        (h.name, trim h.value) :: h.after.filterMap field?).filter isAuthorization = [] := by
      refine List.filter_eq_nil_iff.mpr fun field hmem => Bool.eq_false_iff.mp ?_
      rcases List.mem_append.mp hmem with hmem | hmem
      · exact hbefore field hmem
      · rcases List.mem_cons.mp hmem with rfl | hmem
        · exact hnone
        · exact hafter field hmem
    rw [authorization?, hall]
    rfl
  · have hcounts : isAuthorization (h.name, trim h.value) = true := by
      simp [isAuthorization, hl.name, hblank]
    rw [authorization?_of_last hcounts hafter]

/-- What is read from a head with one authorization header. -/
theorem parse?_render (hl : h.Legal) :
    parse? (Utf8.encode h.parts.render) =
      some ⟨h.method, h.target, readValue h.value⟩ := by
  rw [Parts.parse?_render hl.parts_legal, hl.authorization?_eq]
  rfl

end AuthorizedHead

end RequestHead

namespace Gate

/-- **A header value has the same effects by itself and in a head.**  Take any header value without
a line end, blank, padded, a lone scheme or no header at all, and any head with it as its one
authorization header.  The head is read, and the gate comes to the same decision, writes the same
pages, takes the same measurements and knows the same clients afterwards as for the request with
the value itself. -/
theorem effects_of_head_eq_of_value (policy : Policy) (known : ExpiringSet) (now : Clocks)
    (link : Link) (writeFault : Option Text) (h : RequestHead.AuthorizedHead) (hlegal : h.Legal) :
    ∃ request, RequestHead.parse? (Utf8.encode h.parts.render) = some request ∧
      SameEffects (authenticate policy known now link request writeFault)
        (authenticate policy known now link ⟨h.method, h.target, some h.value⟩ writeFault) :=
  ⟨_, RequestHead.AuthorizedHead.parse?_render hlegal,
    effects_eq_of_kind_eq _ _ _ _ _ _ (kind_verdict?_readValue ..)⟩

/-- A lone scheme between blanks: in the head nothing is left behind it, by itself it is followed by
an empty list of parameters, and both are rejected with the same page. -/
theorem effects_of_lone_scheme :
    let policy : Policy := ⟨true, .empty, [], .ofSeconds 60, .ofSeconds 7200⟩
    let known := ExpiringSet.empty (.ofSeconds 7200)
    let now : Clocks := ⟨.ofParts 1700000000 0, ⟨0⟩⟩
    let h : RequestHead.AuthorizedHead := ⟨"GET".toList, "/".toList, "HTTP/1.1".toList,
      ["Host: a".toList], "PROXY-authorization".toList, " Digest \t".toList, ["X:".toList]⟩
    let byItself := authenticate policy known now ⟨⟨.v4 7, 5000⟩, 80⟩
      ⟨h.method, h.target, some h.value⟩ none
    h.Legal ∧ byItself.outcome = .ok (.rejected .protocol) ∧
      ∃ request, RequestHead.parse? (Utf8.encode h.parts.render) = some request ∧
        SameEffects (authenticate policy known now ⟨⟨.v4 7, 5000⟩, 80⟩ request none) byItself := by
  intro policy known now h byItself
  have hlegal : h.Legal :=
    ⟨⟨by decide, by decide, by decide⟩, ⟨by decide, by decide, by decide⟩,
      ⟨by decide, by decide, by decide⟩, by decide, by decide, by decide, by decide⟩
  exact ⟨hlegal, by decide +kernel,
    effects_of_head_eq_of_value policy known now ⟨⟨.v4 7, 5000⟩, 80⟩ none h hlegal⟩

end Gate

end ProxyAuth
