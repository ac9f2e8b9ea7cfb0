import Mathlib.Tactic
import ProxyAuth.Proofs.Challenge
import ProxyAuth.Proofs.Nonce.Freshness

/-!
# The page of a challenge

Realm and nonce are put between the quotes of a page as they are.  Commas, colons, equals signs and
blanks in them are read by none of the steps that take the page apart: it is cut from its document
behind its last header line, it has its four header lines and no other, and the challenge has its
three parameters and no other.

`Challenge.page_is_read_back` says what is found in the page.
-/

namespace ProxyAuth

open Text

namespace Challenge

variable {realm nonce : Text}

/-- The lines of the head of the page. -/
def linesOfPage (realm nonce body : Text) : List Text :=
  "HTTP/1.1 407 Proxy Authentication Required".toList ::
    (fieldsOfPage realm nonce body).map Response.fieldLine

/-- **The page of a challenge is read back.**  Realm and nonce may be any texts that can stand
between quotes as they are, such as the realm of the proxy and every nonce that it issues.  A client
reads them, and the quality of protection, from the bytes of the page.  The first blank line stands
right behind the four header lines; there are no others, and each is found by its name.  The one
that states the length states the bytes of what is behind the blank line, and the one that carries
the challenge has three parameters and no more. -/
theorem page_is_read_back :
    (IsPlain Digest.realm ∧ ∀ time : WallTime, time.InRange → IsPlain (Nonce.issue time)) ∧
    ∀ realm nonce : Text, IsPlain realm → IsPlain nonce →
      let page := Page.challenge realm nonce
      ofBytes? (Utf8.encode page) = some ⟨realm, nonce, some "auth".toList⟩ ∧
      (∃ head body, splitFirst? "\r\n\r\n".toList page = some (head, body) ∧
        head ++ crlf = Page.headLines (linesOfPage realm nonce body) ∧
        lines head = linesOfPage realm nonce body ∧
        Response.fields page = fieldsOfPage realm nonce body ∧
        (∀ field ∈ fieldsOfPage realm nonce body, ∀ name,
          sameIgnoringCase field.1 name = true → Response.get? page name = some field.2) ∧
        Response.get? page "Content-Length".toList =
          some (decimal (Utf8.encode body).length)) ∧
      ∃ header, Header.parse (headerValue realm nonce) = .ok header ∧
        ∀ name, header.get? name = (parameters realm nonce).lookup (lower name) := by
  refine ⟨⟨isPlain_realm, fun time htime => isPlain_issue ?_⟩, ?_⟩
  · have hhigh := htime.2
    rw [time.unixSeconds_eq, Nonce.wordHalf]
    omega
  intro realm nonce hrealm hnonce page
  refine ⟨ofBytes?_challenge hrealm hnonce, ?_, ?_⟩
  · have hframed := isFramed_page hrealm hnonce
    obtain ⟨head, hcut, hhead, hlines⟩ := hframed.cut
    exact ⟨head, _, hcut, hhead, hlines, hframed.fields_eq, hframed.get?_eq, hframed.length_eq⟩
  · obtain ⟨header, hparse, -, hget⟩ := exists_parse_headerValue hrealm hnonce
    exact ⟨header, hparse, hget⟩

/-- A realm that looks like parameters and header lines, with a tab, a line separator and blanks at
its ends, beside a nonce of marks; and the realm of the proxy beside a nonce that it issued. -/
theorem page_is_read_back_of_marks :
    let realm := " a, nonce=b:\t\u2028Content-Length: 0 ".toList
    let nonce := ",=: é=,".toList
    let page := Page.challenge realm nonce
    ofBytes? (Utf8.encode page) = some ⟨realm, nonce, some "auth".toList⟩ ∧
      Response.get? page "proxy-authenticate".toList =
        some ("Digest realm=\" a, nonce=b:\t\u2028Content-Length: 0 \", nonce=\",=: é=,\", " ++
          "qop=\"auth\"").toList ∧
      Response.get? page "CACHE-CONTROL".toList = some "no-cache".toList ∧
      ofBytes? (Utf8.encode (Page.challenge Digest.realm (Nonce.issue (.ofParts 1700000000 0)))) =
        some ⟨"warden proxy".toList, "6553f100".toList, some "auth".toList⟩ := by
  intro realm nonce page
  obtain ⟨⟨hrealm, hissue⟩, hread⟩ := page_is_read_back
  obtain ⟨hchallenge, ⟨_, body, -, -, -, -, hfound, -⟩, -⟩ :=
    hread realm nonce (by decide) (by decide)
  have hnonce : Nonce.issue (.ofParts 1700000000 0) = "6553f100".toList := by decide +kernel
  obtain ⟨hissued, -⟩ := hread _ _ hrealm (hissue (.ofParts 1700000000 0) ⟨by decide, by decide⟩)
  rw [hnonce] at hissued ⊢
  refine ⟨hchallenge, ?_, ?_, hissued⟩
  · have hvalue : headerValue realm nonce =
        ("Digest realm=\" a, nonce=b:\t\u2028Content-Length: 0 \", nonce=\",=: é=,\", " ++
          "qop=\"auth\"").toList := by decide +kernel
    rw [← hvalue]
    exact hfound ("Proxy-Authenticate".toList, headerValue realm nonce) List.mem_cons_self _
      (by decide)
  · exact hfound ("Cache-Control".toList, "no-cache".toList)
      (by simp [fieldsOfPage, Page.documentFields]) _ (by decide)

end Challenge

end ProxyAuth
