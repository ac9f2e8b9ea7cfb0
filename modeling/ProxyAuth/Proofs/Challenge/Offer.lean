import Mathlib.Tactic
import ProxyAuth.Proofs.Challenge
import ProxyAuth.Proofs.Utf8

/-!
# The challenge that a response offers

A response may have several header lines that carry challenges, of several schemes, between other
lines.  The first one that a client can answer counts.  Nothing in the body can be taken for a header
line; but all bytes of a response are decoded before it is cut from its body, so a body that is no
text hides the challenge.

* `Offers`, `FirstOffered`: what the header lines offer;
* `ofResponse?_append_body`: the header lines are those of the head;
* `ofBytes?_append`: the bytes of the body are decoded or the response is not read;
* `reads_first_offered_iff`: when the first challenge that is offered is found.
-/

namespace ProxyAuth.Challenge

open Text

variable {line head : Text} {ls : List Text} {c : Challenge} {found : Option Challenge}

/-! ### What header lines offer -/

/-- The header value is digest authentication with a realm and a nonce. -/
inductive IsReadAs : Text → Challenge → Prop
  | intro {value : Text} {header : Header} {c : Challenge} (hparse : Header.parse value = .ok header)
      (hdigest : header.isDigest = true) (hrealm : header.get? "realm".toList = some c.realm)
      (hnonce : header.get? "nonce".toList = some c.nonce)
      (hprotection : header.get? "qop".toList = c.protection) : IsReadAs value c

/-- The header line carries a challenge that a client can answer. -/
inductive Offers : Text → Challenge → Prop
  | intro {name value : Text} {c : Challenge} (hname : ':' ∉ name)
      (hchallenge : sameIgnoringCase (trim name) "proxy-authenticate".toList = true)
      (hvalue : IsReadAs (trim value) c) : Offers (name ++ ':' :: value) c

/-- The challenge of the first line that carries one, if any line does. -/
inductive FirstOffered : List Text → Option Challenge → Prop
  | none {ls : List Text} (h : ∀ line ∈ ls, ∀ c, ¬ Offers line c) : FirstOffered ls none
  | some {before after : List Text} {line : Text} {c : Challenge}
      (hbefore : ∀ other ∈ before, ∀ c, ¬ Offers other c) (h : Offers line c) :
      FirstOffered (before ++ line :: after) (some c)

theorem ofHeaderValue?_eq_some_iff {value : Text} :
    ofHeaderValue? value = some c ↔ IsReadAs value c := by
  unfold ofHeaderValue?
  constructor
  · intro h
    split at h
    · cases h
    · rename_i header hparse
      split_ifs at h with hdigest
      obtain ⟨realm, hrealm, h⟩ := Option.bind_eq_some_iff.mp h
      obtain ⟨nonce, hnonce, h⟩ := Option.bind_eq_some_iff.mp h
      obtain rfl := Option.some.inj h
      exact .intro hparse hdigest hrealm hnonce rfl
  · rintro ⟨hparse, hdigest, hrealm, hnonce, hprotection⟩
    rw [hparse]
    simp only [hdigest, if_true, hrealm, hnonce, hprotection]
    rfl

/-- What a header line offers. -/
def offered? (line : Text) : Option Challenge :=
  (splitFirst? [':'] line).bind fun (name, value) =>
    if sameIgnoringCase (trim name) "proxy-authenticate".toList then ofHeaderValue? (trim value)
    else none

theorem offered?_of_not_mem (h : ':' ∉ line) : offered? line = none := by
  rw [offered?, splitFirst?_of_not_mem h]
  rfl

theorem offered?_eq_some_iff : offered? line = some c ↔ Offers line c := by
  by_cases hcolon : ':' ∈ line
  · obtain ⟨name, value, rfl, hname⟩ := List.eq_append_cons_of_mem hcolon
    have hoffered : offered? (name ++ ':' :: value) = some c ↔
        sameIgnoringCase (trim name) "proxy-authenticate".toList = true ∧
          IsReadAs (trim value) c := by
      rw [offered?, splitFirst?_append_cons hname, ← ofHeaderValue?_eq_some_iff]
      exact Option.ite_none_right_eq_some
    rw [hoffered]
    constructor
    · rintro ⟨hchallenge, hvalue⟩
      exact .intro hname hchallenge hvalue
    · generalize hline : name ++ ':' :: value = line
      rintro ⟨hname', hchallenge, hvalue⟩
      obtain ⟨rfl, rfl⟩ := append_cons_inj hname hname' hline
      exact ⟨hchallenge, hvalue⟩
  · rw [offered?_of_not_mem hcolon]
    refine iff_of_false (Option.some_ne_none c).symm ?_
    rintro ⟨-, -, -⟩
    exact hcolon (by simp)

theorem offered?_eq_none_iff : offered? line = none ↔ ∀ c, ¬ Offers line c := by
  simp only [Option.eq_none_iff_forall_ne_some, ne_eq, offered?_eq_some_iff]

theorem firstOffered_none_iff : FirstOffered ls none ↔ ∀ line ∈ ls, ∀ c, ¬ Offers line c :=
  ⟨fun h => by cases h; assumption, .none⟩

/-- Looking through the lines finds the first challenge. -/
theorem findSome?_offered?_eq_iff : ls.findSome? offered? = found ↔ FirstOffered ls found := by
  cases found with
  | none =>
    rw [List.findSome?_eq_none_iff, firstOffered_none_iff]
    simp only [offered?_eq_none_iff]
  | some c =>
    rw [List.findSome?_eq_some_iff]
    simp only [offered?_eq_some_iff, offered?_eq_none_iff]
    constructor
    · rintro ⟨before, line, after, rfl, hoffers, hbefore⟩
      exact .some hbefore hoffers
    · intro h
      cases h with
      | some hbefore hoffers => exact ⟨_, _, _, rfl, hoffers, hbefore⟩

/-! ### Head and body -/

/-- The challenge of a response is that of the header lines of what is cut off its front. -/
theorem ofResponse?_eq (response : Text) :
    ofResponse? response = ((lines (((splitFirst? "\r\n\r\n".toList response).map (·.1)).getD
      response)).drop 1).findSome? offered? := by
  rw [ofResponse?, Response.fields, ← List.head?_filterMap, List.filterMap_filterMap,
    List.head?_filterMap]
  congr 1
  funext line
  rw [offered?]
  cases splitFirst? [':'] line <;> rfl

/-- An empty line at the end offers nothing. -/
theorem findSome?_offered?_concat_nil (ls : List Text) :
    ((ls ++ [[]]).drop 1).findSome? offered? = (ls.drop 1).findSome? offered? := by
  have hempty : offered? [] = none := offered?_of_not_mem List.not_mem_nil
  cases ls with
  | nil => rfl
  | cons status ls => simp [List.findSome?_append, hempty]

/-- Whatever the body, the header lines of a response are those of its head. -/
theorem ofResponse?_append_body (hhead : ¬ crlf ++ crlf <:+: head) (body : Text) :
    ofResponse? (head ++ (crlf ++ crlf) ++ body) =
      ((lines head).drop 1).findSome? offered? := by
  obtain ⟨shown, rest, hcut, hlines⟩ := exists_shown hhead body
  rw [ofResponse?_eq, hcut]
  rcases hlines with hlines | hlines <;> rw [hlines]
  · rfl
  · rw [findSome?_offered?_concat_nil]
    rfl

@[simp] theorem ofBytes?_encode (response : Text) :
    ofBytes? (Utf8.encode response) = ofResponse? response := by
  rw [ofBytes?, Utf8.decode?_encode, Option.bind_some]

/-- A response is read if its body is a text. -/
theorem ofBytes?_append (front : Text) (body : Bytes) :
    ofBytes? (Utf8.encode front ++ body) =
      (Utf8.decode? body).bind fun text => ofResponse? (front ++ text) := by
  rw [ofBytes?, Utf8.decode?, Utf8.decodeFrom_encode_append, Option.bind_map]
  rfl

/-- **What a response offers.**  A response is a head without a blank line, a blank line and a body
of any bytes; the head has header lines behind its first line, each ended by a line feed or CR LF.
Of a body that is a text nothing matters: exactly the first challenge that a header line offers is
found.  With any other body none is found.  So the first challenge that is offered is found if the
body is a text or no challenge is offered, and in no other case. -/
theorem reads_first_offered_iff (hhead : ¬ crlf ++ crlf <:+: head) (hls : IsLined head ls)
    (body : Bytes) :
    let response := Utf8.encode (head ++ (crlf ++ crlf)) ++ body
    (FirstOffered (ls.drop 1) (ofBytes? response) ↔
      (∃ text, body = Utf8.encode text) ∨ ∀ line ∈ ls.drop 1, ∀ c, ¬ Offers line c) ∧
    (∀ text, body = Utf8.encode text →
      ∀ found, ofBytes? response = found ↔ FirstOffered (ls.drop 1) found) ∧
    ((∀ text, body ≠ Utf8.encode text) → ofBytes? response = none) := by
  intro response
  have hread : ∀ text, body = Utf8.encode text →
      ∀ found, ofBytes? response = found ↔ FirstOffered (ls.drop 1) found := by
    rintro text rfl found
    rw [← findSome?_offered?_eq_iff, ← lines_eq_iff.mpr hls, ← ofResponse?_append_body hhead text,
      ← ofBytes?_encode, Utf8.encode_append _ text]
  have hhidden : (∀ text, body ≠ Utf8.encode text) → ofBytes? response = none := by
    intro hbody
    have hdecode : Utf8.decode? body = none :=
      Option.eq_none_iff_forall_ne_some.mpr fun text htext =>
        hbody text (Utf8.decode?_eq_some_iff.mp htext)
    have hresponse : ofBytes? response = _ := ofBytes?_append _ body
    rw [hresponse, hdecode, Option.bind_none]
  refine ⟨?_, hread, hhidden⟩
  by_cases hbody : ∃ text, body = Utf8.encode text
  · obtain ⟨text, htext⟩ := hbody
    exact iff_of_true ((hread text htext _).mp rfl) (.inl ⟨text, htext⟩)
  · rw [hhidden (not_exists.mp hbody), firstOffered_none_iff]
    exact (or_iff_right hbody).symm

/-- Line ends of both kinds, a line without a colon, a challenge of another scheme and one without
a realm in front of two that can be answered; behind the head a text that looks like a further
challenge, or a byte that belongs to no text. -/
theorem reads_first_offered_of_mixed_lines :
    let status := "HTTP/1.1 407 X".toList
    let lone := "no colon".toList
    let basic := "Proxy-Authenticate: Basic realm=a, nonce=b".toList
    let partly := "Proxy-Authenticate: Digest nonce=c".toList
    let first := " PROXY-Authenticate\t:digest REALM=\"é:\", nonce=1 ".toList
    let second := "Proxy-Authenticate: Digest realm=d, nonce=2".toList
    let head := status ++ '\n' :: (lone ++ '\r' :: '\n' :: (basic ++ '\n' ::
      (partly ++ '\r' :: '\n' :: (first ++ '\n' :: second))))
    let front := Utf8.encode (head ++ (crlf ++ crlf))
    ¬ crlf ++ crlf <:+: head ∧ IsLined head [status, lone, basic, partly, first, second] ∧
      ofBytes? (front ++ Utf8.encode (basic ++ (crlf ++ second))) =
        some ⟨"é:".toList, "1".toList, none⟩ ∧
      ofBytes? (front ++ [0xff]) = none := by
  intro status lone basic partly first second head front
  have hhead : ¬ crlf ++ crlf <:+: head := splitFirst?_eq_none_iff.mp (by decide +kernel)
  have hls : IsLined head [status, lone, basic, partly, first, second] :=
    .feed (by decide) (by decide) <| .crlf (by decide) <| .feed (by decide) (by decide) <|
      .crlf (by decide) <| .feed (by decide) (by decide) <| .unended (by decide) (by decide)
  obtain ⟨-, hread, -⟩ := reads_first_offered_iff hhead hls _
  obtain ⟨-, -, hhidden⟩ := reads_first_offered_iff hhead hls [0xff]
  refine ⟨hhead, hls, (hread _ rfl _).mpr ?_, hhidden fun text htext => ?_⟩
  · exact findSome?_offered?_eq_iff.mp (by decide +kernel)
  · have hnone : Utf8.decode? [0xff] = none := by decide
    rw [htext, Utf8.decode?_encode] at hnone
    cases hnone

/-- A body that is no text hides the challenge that a header line offers. -/
theorem not_reads_first_offered :
    ¬ ∀ (head : Text) (ls : List Text) (body : Bytes), ¬ crlf ++ crlf <:+: head →
      IsLined head ls →
      FirstOffered (ls.drop 1) (ofBytes? (Utf8.encode (head ++ (crlf ++ crlf)) ++ body)) := by
  intro hreads
  let line := "Proxy-Authenticate: Digest realm=r, nonce=n".toList
  let head := "HTTP/1.1 407 X\r\n".toList ++ line
  have hfirst := hreads head ["HTTP/1.1 407 X".toList, line] [0xff]
    (splitFirst?_eq_none_iff.mp (by decide +kernel)) (lines_eq_iff.mp (by decide +kernel))
  have hnone : ofBytes? (Utf8.encode (head ++ (crlf ++ crlf)) ++ [0xff]) = none := by
    decide +kernel
  have hoffered : offered? line = some ⟨"r".toList, "n".toList, none⟩ := by decide +kernel
  rw [hnone, firstOffered_none_iff] at hfirst
  exact hfirst line List.mem_cons_self _ (offered?_eq_some_iff.mp hoffered)

end ProxyAuth.Challenge
