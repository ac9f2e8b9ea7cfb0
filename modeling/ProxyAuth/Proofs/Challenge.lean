import Mathlib.Tactic
import ProxyAuth.Challenge
import ProxyAuth.Proofs.Header.Lookup
import ProxyAuth.Proofs.Header.Printed
import ProxyAuth.Proofs.Nonce
import ProxyAuth.Proofs.Page

/-!
# Reading a challenge that was sent

A client cuts the head of a response into lines and the lines into names and values.  In the page
with status 407 it finds the line that carries the challenge, takes it apart and reads the same realm
and nonce, as long as they can stand between quotes as they are (`IsPlain`).

* `Challenge.ofHeaderValue?_headerValue`: the value that carries a challenge;
* `Challenge.isFramed_page`, `Challenge.ofBytes?_challenge`: the page.
-/

namespace ProxyAuth

open Text

/-- A text that can stand between quotes as it is, and is short enough for a header. -/
structure IsPlain (s : Text) : Prop where
  byteLength_le : byteLength s ≤ Header.Part.value.limit
  not_forbidden : ∀ c ∈ s, Header.isForbidden c = false
  not_marked : ∀ c ∈ s, c ≠ '"' ∧ c ≠ '\\'

namespace IsPlain

variable {s : Text}

theorem iff_all : IsPlain s ↔ byteLength s ≤ Header.Part.value.limit ∧
    (s.all fun c => !Header.isForbidden c && c ≠ '"' && c ≠ '\\') = true := by
  simp only [List.all_eq_true, Bool.and_eq_true, Bool.not_eq_true', decide_eq_true_eq, and_assoc]
  exact ⟨fun h => ⟨h.byteLength_le, fun c hc => ⟨h.not_forbidden c hc, h.not_marked c hc⟩⟩,
    fun ⟨hlength, hall⟩ => ⟨hlength, fun c hc => (hall c hc).1, fun c hc => (hall c hc).2⟩⟩

instance (s : Text) : Decidable (IsPlain s) := decidable_of_iff _ iff_all.symm

theorem of_isToken (h : Header.isToken s = true)
    (hlength : byteLength s ≤ Header.Part.value.limit) : IsPlain s where
  byteLength_le := hlength
  not_forbidden := Header.not_forbidden_of_isToken h
  not_marked c hc := by
    have hchar := (Header.isToken_iff.mp h).2 c hc
    exact ⟨Header.ne_of_isTokenChar hchar (by decide), Header.ne_of_isTokenChar hchar (by decide)⟩

theorem quotedString_eq (h : IsPlain s) : Header.quotedString s = '"' :: s ++ ['"'] := by
  have hescaped : s.flatMap Header.escapedChar = s := by
    have hkept : ∀ c ∈ s, Header.escapedChar c = [c] := fun c hc => by
      obtain ⟨hquote, hslash⟩ := h.not_marked c hc
      rw [Header.escapedChar, if_neg (not_or.mpr ⟨hquote, hslash⟩)]
    rw [List.flatMap_congr hkept, List.flatMap_singleton']
  rw [Header.quotedString, hescaped]

end IsPlain

/-! ### The value that carries a challenge -/

namespace Challenge

variable {realm nonce : Text}

/-- The parameters of a challenge. -/
def parameters (realm nonce : Text) : List (Text × Text) :=
  [("realm".toList, realm), ("nonce".toList, nonce), ("qop".toList, Digest.protection)]

/-- The value of the header line that carries a challenge. -/
def headerValue (realm nonce : Text) : Text :=
  "Digest".toList ++ ' ' :: List.intercalate ", ".toList
    ((parameters realm nonce).map fun p => p.1 ++ '=' :: ('"' :: p.2 ++ ['"']))

theorem isPlain_protection : IsPlain Digest.protection := .of_isToken (by decide) (by decide)

theorem isPlain_realm : IsPlain Digest.realm := by decide

/-- The nonce of a time that fits a word can be read from the page. -/
theorem isPlain_issue {time : WallTime} (h : (time.unixSeconds : Int) < Nonce.wordHalf) :
    IsPlain (Nonce.issue time) := by
  have htoken := Header.isToken_hexadecimal time.unixSeconds
  refine .of_isToken htoken ?_
  have hbytes : byteLength (Nonce.issue time) = _ := Header.byteLength_of_isToken htoken
  rw [hbytes]
  exact (Nonce.length_issue_le h).trans (by decide)

theorem isPlain_of_mem_parameters (hrealm : IsPlain realm) (hnonce : IsPlain nonce) :
    ∀ p ∈ parameters realm nonce, IsPlain p.2 :=
  List.forall_mem_cons.mpr ⟨hrealm, List.forall_mem_cons.mpr
    ⟨hnonce, List.forall_mem_singleton.mpr isPlain_protection⟩⟩

theorem name_of_mem_parameters : ∀ p ∈ parameters realm nonce,
    byteLength p.1 ≤ Header.Part.name.limit ∧ Header.isToken p.1 = true := by
  intro p hp
  have hnames : ∀ name ∈ ["realm", "nonce", "qop"].map String.toList,
      byteLength name ≤ Header.Part.name.limit ∧ Header.isToken name = true := by decide
  exact hnames p.1 (List.mem_map_of_mem (f := Prod.fst) hp)

theorem spells_of_mem_parameters (hrealm : IsPlain realm) (hnonce : IsPlain nonce) :
    ∀ p ∈ parameters realm nonce,
      Header.isToken p.1 = true ∧ Header.Spells ('"' :: p.2 ++ ['"']) p.2 := by
  intro p hp
  refine ⟨(name_of_mem_parameters p hp).2, ?_⟩
  rw [← (isPlain_of_mem_parameters hrealm hnonce p hp).quotedString_eq]
  exact Header.spells_quotedString p.2

theorem isTrimmed_headerValue (hrealm : IsPlain realm) (hnonce : IsPlain nonce) :
    IsTrimmed (headerValue realm nonce) :=
  Header.isTrimmed_spelled (by decide) (List.cons_ne_nil _ _)
    (spells_of_mem_parameters hrealm hnonce)

theorem not_forbidden_headerValue (hrealm : IsPlain realm) (hnonce : IsPlain nonce) :
    ∀ c ∈ headerValue realm nonce, Header.isForbidden c = false := by
  refine Header.not_forbidden_spelled (by decide) fun p hp => ?_
  have hplain := isPlain_of_mem_parameters hrealm hnonce p hp
  refine ⟨(name_of_mem_parameters p hp).2, ?_⟩
  rw [← hplain.quotedString_eq]
  exact Header.not_forbidden_quotedString hplain.not_forbidden

/-- The value of the line is read as a header with these parameters and no other. -/
theorem exists_parse_headerValue (hrealm : IsPlain realm) (hnonce : IsPlain nonce) :
    ∃ header, Header.parse (headerValue realm nonce) = .ok header ∧
      header.scheme = "Digest".toList ∧
      ∀ name, header.get? name = (parameters realm nonce).lookup (lower name) := by
  have hlegal : ∀ p ∈ parameters realm nonce, Header.parameterFault? p.1 p.2 = none := by
    intro p hp
    obtain ⟨hlength, htoken⟩ := name_of_mem_parameters p hp
    have hplain := isPlain_of_mem_parameters hrealm hnonce p hp
    exact Header.parameterFault?_eq_none_iff.mpr
      ⟨hlength, htoken, hplain.byteLength_le, hplain.not_forbidden⟩
  obtain ⟨header, hall, hscheme, hget⟩ := Header.exists_setAll
    (h := ⟨"Digest".toList, []⟩) hlegal (show 0 + 3 ≤ 30 by decide)
  refine ⟨header, ?_, hscheme, fun name => ?_⟩
  · have hread : Header.assignments (List.intercalate ", ".toList ((parameters realm nonce).map
        fun p => p.1 ++ '=' :: ('"' :: p.2 ++ ['"']))) = parameters realm nonce :=
      Header.assignments_spelled (List.cons_ne_nil _ _) (spells_of_mem_parameters hrealm hnonce)
    have hscheme : Header.ofScheme "Digest".toList = .ok ⟨"Digest".toList, []⟩ := by decide
    have hparse : Header.parse (headerValue realm nonce) = _ := Header.parse_append (by decide) _
    rw [hparse, hread, hscheme]
    exact hall
  · have hnames : ∀ n ∈ ["realm", "nonce", "qop"].map String.toList, lower n = n := by decide
    have hlower : ∀ p ∈ parameters realm nonce, lower p.1 = p.1 := fun p hp =>
      hnames p.1 (List.mem_map_of_mem (f := Prod.fst) hp)
    have hdistinct : ((parameters realm nonce).map Prod.fst).Nodup :=
      show (["realm", "nonce", "qop"].map String.toList).Nodup by decide
    have hempty : Header.get? ⟨"Digest".toList, []⟩ name = none := rfl
    rw [hget, hempty, Option.or_none]
    exact Header.lastValue?_eq_lookup hlower hdistinct name

/-- The value of the line is read as the challenge. -/
theorem ofHeaderValue?_headerValue (hrealm : IsPlain realm) (hnonce : IsPlain nonce) :
    ofHeaderValue? (headerValue realm nonce) = some ⟨realm, nonce, some Digest.protection⟩ := by
  obtain ⟨header, hparse, hscheme, hget⟩ := exists_parse_headerValue hrealm hnonce
  have hdigest : header.isDigest = true := by
    rw [Header.isDigest, hscheme]
    decide
  have hr : header.get? "realm".toList = some realm := by rw [hget]; rfl
  have hn : header.get? "nonce".toList = some nonce := by rw [hget]; rfl
  have hq : header.get? "qop".toList = some Digest.protection := by rw [hget]; rfl
  rw [ofHeaderValue?, hparse]
  simp only [hdigest, if_true, hr, hn, hq]
  rfl

/-! ### The page -/

/-- The header lines of the page. -/
def fieldsOfPage (realm nonce body : Text) : List (Text × Text) :=
  ("Proxy-Authenticate".toList, headerValue realm nonce) :: Page.documentFields body

/-- Three values between quotes, taken apart. -/
theorem quoted_eq_assignments {start second third line scheme name₁ name₂ name₃ between : Text}
    (value₁ value₂ value₃ : Text)
    (hstart : start = line ++ ':' :: ' ' :: (scheme ++ ' ' :: (name₁ ++ ['=', '"'])))
    (hsecond : second = '"' :: (between ++ (name₂ ++ ['=', '"'])))
    (hthird : third = '"' :: (between ++ (name₃ ++ ['=', '"']))) :
    start ++ value₁ ++ second ++ value₂ ++ third ++ value₃ ++ ['"'] =
      line ++ ':' :: ' ' :: (scheme ++ ' ' :: between.intercalate
        ([(name₁, value₁), (name₂, value₂), (name₃, value₃)].map
          fun p => p.1 ++ '=' :: ('"' :: p.2 ++ ['"']))) := by
  subst hstart hsecond hthird
  simp [List.intercalate_cons_cons]

theorem challengeLine_eq (realm nonce : Text) : Page.challengeLine realm nonce =
    Response.fieldLine ("Proxy-Authenticate".toList, headerValue realm nonce) := by
  have hstart : "Proxy-Authenticate: Digest realm=\"".toList = "Proxy-Authenticate".toList ++
      ':' :: ' ' :: ("Digest".toList ++ ' ' :: ("realm".toList ++ ['=', '"'])) := by
    decide +kernel
  exact quoted_eq_assignments realm nonce Digest.protection hstart (by decide +kernel)
    (by decide +kernel)

/-- The names of the header lines differ, whatever their letter case. -/
theorem nodup_names_fieldsOfPage (realm nonce body : Text) :
    ((fieldsOfPage realm nonce body).map fun field => lower field.1).Nodup :=
  show (["proxy-authenticate", "content-type", "cache-control", "content-length"].map
    String.toList).Nodup by decide

theorem isField_headerValue (hrealm : IsPlain realm) (hnonce : IsPlain nonce) :
    Response.IsField ("Proxy-Authenticate".toList, headerValue realm nonce) := by
  have hvalue : '\n' ∉ headerValue realm nonce := fun hmem =>
    absurd (not_forbidden_headerValue hrealm hnonce _ hmem) (by decide)
  exact .of_isToken (by decide) hvalue (isTrimmed_headerValue hrealm hnonce)

/-- The page 407. -/
theorem isFramed_page (hrealm : IsPlain realm) (hnonce : IsPlain nonce) :
    let body := Page.document "407 Proxy authentication required".toList
    Page.IsFramed (Page.challenge realm nonce) "HTTP/1.1 407 Proxy Authentication Required".toList
      (fieldsOfPage realm nonce body) body := by
  intro body
  rw [Page.challenge, challengeLine_eq]
  exact Page.isFramed_withDocument ⟨by decide, by decide⟩
    (List.forall_mem_singleton.mpr (isField_headerValue hrealm hnonce))
    (nodup_names_fieldsOfPage realm nonce body)

/-- **A challenge that was sent is read back.** -/
theorem ofBytes?_challenge (hrealm : IsPlain realm) (hnonce : IsPlain nonce) :
    ofBytes? (Utf8.encode (Page.challenge realm nonce)) =
      some ⟨realm, nonce, some Digest.protection⟩ := by
  have hname : sameIgnoringCase "Proxy-Authenticate".toList "proxy-authenticate".toList = true := by
    decide
  rw [ofBytes?, Utf8.decode?_encode, Option.bind_some, ofResponse?,
    (isFramed_page hrealm hnonce).fields_eq, fieldsOfPage, List.findSome?_cons]
  simp only [hname, if_true, ofHeaderValue?_headerValue hrealm hnonce]

end Challenge

end ProxyAuth
