import Mathlib.Tactic
import ProxyAuth.Challenge
import ProxyAuth.Page
import ProxyAuth.Proofs.HeadLines
import ProxyAuth.Proofs.Header.Bounds
import ProxyAuth.Proofs.Utf8

/-!
# Pages and their frames

A response is a status line, header lines and a body.  A reader cuts it at the first blank line,
takes the header lines apart and learns from one of them how long the body is.  A page is framed
(`Page.IsFramed`) if that reader finds what was written: any status line, header lines and body put
together from lines are (`Page.isFramed_headLines`), and so is every page with a document
(`Page.isFramed_withDocument`).

* `Response.fields_headLines`, `Response.get?_of_mem_fields`: the header lines of any response;
* `Page.isFramed_badRequest`, `Page.isFramed_success`: the pages that depend on nothing.
-/

namespace ProxyAuth

open Text
open Page (headLines)

/-! ### The header lines of a response -/

namespace Response

/-- A header line. -/
def fieldLine (field : Text × Text) : Text := field.1 ++ ':' :: ' ' :: field.2

/-- Name and value can be told from a header line. -/
structure IsField (field : Text × Text) : Prop where
  not_mem_colon : ':' ∉ field.1
  not_mem_newline : '\n' ∉ field.1 ∧ '\n' ∉ field.2
  isTrimmed : IsTrimmed field.1 ∧ IsTrimmed field.2

theorem IsField.of_isToken {name value : Text} (h : Header.isToken name = true)
    (hvalue : '\n' ∉ value) (htrimmed : IsTrimmed value) : IsField (name, value) where
  not_mem_colon := Header.not_mem_of_isToken h (by decide)
  not_mem_newline := ⟨Header.not_mem_of_isToken h (by decide), hvalue⟩
  isTrimmed := ⟨Header.isTrimmed_of_isToken h, htrimmed⟩

theorem IsField.isLine {field : Text × Text} (h : IsField field) :
    fieldLine field ≠ [] ∧ '\n' ∉ fieldLine field := by
  obtain ⟨hname, hvalue⟩ := h.not_mem_newline
  simp [fieldLine, hname, hvalue]

theorem isLine_of_isField {status : Text} {sent : List (Text × Text)}
    (hstatus : status ≠ [] ∧ '\n' ∉ status) (h : ∀ field ∈ sent, IsField field) :
    ∀ line ∈ status :: sent.map fieldLine, line ≠ [] ∧ '\n' ∉ line :=
  List.forall_mem_cons.mpr ⟨hstatus, List.forall_mem_map.mpr fun field hfield =>
    (h field hfield).isLine⟩

theorem IsField.read {field : Text × Text} (h : IsField field) :
    (splitFirst? [':'] (fieldLine field)).map (fun (name, value) => (trim name, trim value)) =
      some field := by
  rw [fieldLine, splitFirst?_append_cons h.not_mem_colon]
  simp only [Option.map_some, trim_eq_self h.isTrimmed.1, trim_space_cons h.isTrimmed.2]

/-- Whatever the body, the header lines of a response are those of its head. -/
theorem fields_headLines {status : Text} {sent : List (Text × Text)}
    (hstatus : status ≠ [] ∧ '\n' ∉ status) (h : ∀ field ∈ sent, IsField field) (body : Text) :
    fields (headLines (status :: sent.map fieldLine) ++ crlf ++ body) = sent := by
  obtain ⟨head, hcut, -, hlines⟩ := exists_head (List.cons_ne_nil status (sent.map fieldLine))
    (isLine_of_isField hstatus h) body
  rw [fields, hcut]
  simp only [Option.map_some, Option.getD_some]
  rw [hlines, List.drop_one, List.tail_cons, List.filterMap_map]
  calc sent.filterMap _ = sent.filterMap some :=
        List.filterMap_congr fun field hfield => (h field hfield).read
    _ = sent := List.filterMap_some

/-- Header lines of different names are found, by any spelling of the name. -/
theorem get?_of_mem_fields {response name : Text} {field : Text × Text}
    (hdistinct : ((fields response).map fun f => lower f.1).Nodup) (hmem : field ∈ fields response)
    (hname : sameIgnoringCase field.1 name = true) : get? response name = some field.2 := by
  obtain ⟨front, back, hsplit⟩ := List.append_of_mem hmem
  have hfirst : (fields response).find? (fun f => sameIgnoringCase f.1 name) = some field := by
    rw [List.find?_eq_some_iff_append]
    refine ⟨hname, front, back, hsplit, fun f hf => ?_⟩
    rw [hsplit, List.map_append, List.map_cons, List.nodup_append] at hdistinct
    have hne : lower f.1 ≠ lower field.1 :=
      hdistinct.2.2 _ (List.mem_map_of_mem hf) _ List.mem_cons_self
    rw [sameIgnoringCase_iff] at hname
    rw [Bool.not_eq_true', ← Bool.not_eq_true, sameIgnoringCase_iff, ← hname]
    exact hne
  rw [get?, hfirst]
  rfl

end Response

/-! ### Frames -/

namespace Page

open Response (fieldLine IsField)

/-- The header line that states how long a body is. -/
def lengthField (body : Text) : Text × Text :=
  ("Content-Length".toList, decimal (byteLength body))

/-- A reader finds in a page what it was made of: the first blank line stands right behind the
status line and the header lines, there are no other header lines, each is found by its name, and
the stated length is that of what follows. -/
structure IsFramed (page status : Text) (sent : List (Text × Text)) (body : Text) : Prop where
  cut : ∃ head, splitFirst? "\r\n\r\n".toList page = some (head, body) ∧
    head ++ crlf = headLines (status :: sent.map fieldLine) ∧
    lines head = status :: sent.map fieldLine
  fields_eq : Response.fields page = sent
  get?_eq : ∀ field ∈ sent, ∀ name, sameIgnoringCase field.1 name = true →
    Response.get? page name = some field.2
  length_eq : Response.get? page "Content-Length".toList =
    some (decimal (Utf8.encode body).length)

variable {status body : Text} {sent extra : List (Text × Text)}

/-- A head of lines frames any body whose length it states. -/
theorem isFramed_headLines (hstatus : status ≠ [] ∧ '\n' ∉ status)
    (hsent : ∀ field ∈ sent, IsField field)
    (hdistinct : (sent.map fun field => lower field.1).Nodup) (hlength : lengthField body ∈ sent) :
    IsFramed (headLines (status :: sent.map fieldLine) ++ crlf ++ body) status sent body := by
  have hfields := Response.fields_headLines hstatus hsent body
  have hfound : ∀ field ∈ sent, ∀ name, sameIgnoringCase field.1 name = true →
      Response.get? (headLines (status :: sent.map fieldLine) ++ crlf ++ body) name =
        some field.2 := fun field hfield name hname =>
    Response.get?_of_mem_fields (hfields.symm ▸ hdistinct) (hfields.symm ▸ hfield) hname
  refine ⟨exists_head (List.cons_ne_nil _ _) (Response.isLine_of_isField hstatus hsent) body,
    hfields, hfound, ?_⟩
  rw [Utf8.length_encode]
  exact hfound _ hlength _ (sameIgnoringCase_iff.mpr rfl)

theorem isField_lengthField (body : Text) : IsField (lengthField body) :=
  .of_isToken (by decide) (not_mem_decimal (by decide) _)
    (Header.isTrimmed_of_isToken (Header.isToken_decimal _))

/-! ### Pages with a document -/

/-- The header lines that go with a document. -/
def documentFields (body : Text) : List (Text × Text) :=
  [("Content-Type".toList, "text/html".toList), ("Cache-Control".toList, "no-cache".toList),
    lengthField body]

theorem isField_of_mem_documentFields : ∀ field ∈ documentFields body, IsField field := by
  have hall : ("text/html".toList.all fun c => !isBlank c) = true := by decide
  have hhtml : IsTrimmed "text/html".toList :=
    .of_forall fun c hc => by simpa using List.all_eq_true.mp hall c hc
  have htype : IsField ("Content-Type".toList, "text/html".toList) :=
    .of_isToken (by decide) (by decide) hhtml
  have hcache : IsField ("Cache-Control".toList, "no-cache".toList) :=
    .of_isToken (by decide) (by decide) (Header.isTrimmed_of_isToken (by decide))
  exact List.forall_mem_cons.mpr ⟨htype, List.forall_mem_cons.mpr
    ⟨hcache, List.forall_mem_singleton.mpr (isField_lengthField body)⟩⟩

/-- A page with a document is its header lines and the document. -/
theorem withDocument_eq (status : Text) (extra : List (Text × Text)) (body : Text) :
    withDocument (status :: extra.map fieldLine) body =
      headLines (status :: (extra ++ documentFields body).map fieldLine) ++ crlf ++ body := by
  have htype : "Content-Type: text/html".toList =
      fieldLine ("Content-Type".toList, "text/html".toList) := by decide +kernel
  have hcache : "Cache-Control: no-cache".toList =
      fieldLine ("Cache-Control".toList, "no-cache".toList) := by decide +kernel
  have hlength : "Content-Length: ".toList = "Content-Length".toList ++ [':', ' '] := by
    decide +kernel
  have hlengthLine : "Content-Length: ".toList ++ decimal (byteLength body) =
      fieldLine (lengthField body) := by
    rw [hlength, List.append_assoc]
    rfl
  have hcrlf : "\r\n".toList = crlf := by decide
  rw [withDocument, htype, hcache, hlengthLine, hcrlf, List.map_append, List.cons_append]
  rfl

/-- A document is framed, whatever other header lines there are. -/
theorem isFramed_withDocument (hstatus : status ≠ [] ∧ '\n' ∉ status)
    (hextra : ∀ field ∈ extra, IsField field)
    (hdistinct : ((extra ++ documentFields body).map fun field => lower field.1).Nodup) :
    IsFramed (withDocument (status :: extra.map fieldLine) body) status
      (extra ++ documentFields body) body := by
  rw [withDocument_eq]
  refine isFramed_headLines hstatus ?_ hdistinct ?_
  · exact List.forall_mem_append.mpr ⟨hextra, isField_of_mem_documentFields⟩
  · exact List.mem_append_right _ (by simp [documentFields])

/-- The page 400. -/
theorem isFramed_badRequest :
    let body := document "400 Bad authorization request".toList
    IsFramed badRequest "HTTP/1.1 400 Bad Request".toList
      (("Connection".toList, "close".toList) :: documentFields body) body := by
  intro body
  have hclose : "Connection: close".toList =
      fieldLine ("Connection".toList, "close".toList) := by decide +kernel
  have hdistinct : (["connection", "content-type", "cache-control", "content-length"].map
    String.toList).Nodup := by decide
  have hfield : IsField ("Connection".toList, "close".toList) :=
    .of_isToken (by decide) (by decide) (Header.isTrimmed_of_isToken (by decide))
  rw [badRequest, hclose]
  exact isFramed_withDocument ⟨by decide, by decide⟩ (List.forall_mem_singleton.mpr hfield)
    hdistinct

/-- The success has no body, and says so. -/
theorem isFramed_success :
    IsFramed success "HTTP/1.1 200 OK".toList [("Content-Length".toList, ['0'])] [] := by
  have hparts : success = headLines ("HTTP/1.1 200 OK".toList ::
      [lengthField []].map fieldLine) ++ crlf ++ [] := by decide +kernel
  rw [hparts]
  exact isFramed_headLines ⟨by decide, by decide⟩
    (List.forall_mem_singleton.mpr (isField_lengthField [])) (List.nodup_singleton _)
    (List.mem_singleton.mpr rfl)

end Page

end ProxyAuth
