import Mathlib.Tactic
import ProxyAuth.Proofs.Header.RoundTrip

/-!
# Reading any spelling of a header

A header value can be written in many ways: with blanks around its parts, with parts that assign
nothing, with values bare or quoted, and with backslashes in front of any character between quotes.
The reader does with every spelling what the assignments say, one after the other, and stops at the
first fault.

* `Spelling`, `Item`, `HeaderSpelling`: what may be written;
* `Item.isSealed_render`, `Item.assignment?_render`: an item stays in one part, and the part is read
  as what the item assigns;
* `parse_spelling`: what is read from a header value.
-/

namespace ProxyAuth.Header

open Text

/-- A text of blanks. -/
structure Blanks where
  text : Text
  all_isBlank : text.all isBlank = true

namespace Blanks

/-- No blanks. -/
def none : Blanks := ⟨[], rfl⟩

theorem isBlank_of_mem (b : Blanks) : ∀ c ∈ b.text, isBlank c = true :=
  List.all_eq_true.mp b.all_isBlank

theorem not_mem (b : Blanks) {c : Char} (hc : isBlank c = false) : c ∉ b.text := fun hmem =>
  ne_of_isBlank (b.isBlank_of_mem c hmem) hc rfl

theorem isSealed (b : Blanks) : Sealed b.text :=
  .of_not_mem (b.not_mem (by decide)) (b.not_mem (by decide))

end Blanks

/-! ### Values -/

/-- A value, written as it is or between quotes. -/
inductive Spelling
  | bare (value : Text) (isTrimmed : IsTrimmed value)
      (unmarked : ',' ∉ value ∧ '"' ∉ value)
  | quoted (chars : List QuotedChar)

namespace Spelling

/-- The text that is written. -/
def render : Spelling → Text
  | bare value _ _ => value
  | quoted chars => quotation chars

/-- The value that is meant. -/
def value : Spelling → Text
  | bare value _ _ => value
  | quoted chars => chars.map QuotedChar.char

theorem isTrimmed_render (s : Spelling) : IsTrimmed s.render := by
  cases s with
  | bare value isTrimmed unmarked => exact isTrimmed
  | quoted chars => exact isTrimmed_quotation chars

theorem isSealed_render (s : Spelling) : Sealed s.render := by
  cases s with
  | bare value isTrimmed unmarked => exact .of_not_mem unmarked.1 unmarked.2
  | quoted chars => exact sealed_quotation chars

theorem unquote_render (s : Spelling) : unquote s.render = s.value := by
  cases s with
  | bare value isTrimmed unmarked =>
    exact unquote_of_head_ne fun hquote => unmarked.2 (List.mem_of_head? hquote)
  | quoted chars => exact unquote_quotation chars

end Spelling

/-! ### Items -/

/-- What may stand between commas. -/
inductive Item
  /-- A text that assigns nothing, possibly empty. -/
  | text (s : Text) (unmarked : ',' ∉ s ∧ '"' ∉ s ∧ '=' ∉ s)
  /-- A name and a value around an equals sign, with blanks on either side of it. -/
  | assignment (name : Text) (isTrimmed : IsTrimmed name)
      (unmarked : ',' ∉ name ∧ '"' ∉ name ∧ '=' ∉ name) (before after : Blanks)
      (spelling : Spelling)

namespace Item

/-- The text of the item without the blanks around it. -/
def body : Item → Text
  | text s _ => s
  | assignment name _ _ before after spelling =>
      name ++ (before.text ++ '=' :: (after.text ++ spelling.render))

/-- What the item assigns, if anything. -/
def pair? : Item → Option (Text × Text)
  | text _ _ => none
  | assignment name _ _ _ _ spelling => some (name, spelling.value)

theorem isSealed_body (item : Item) : Sealed item.body := by
  cases item with
  | text s unmarked => exact .of_not_mem unmarked.1 unmarked.2.1
  | assignment name isTrimmed unmarked before after spelling =>
    have hname : Sealed name := .of_not_mem unmarked.1 unmarked.2.1
    have hequals : Sealed ['='] := .of_not_mem (by decide) (by decide)
    exact hname.append (before.isSealed.append
      (hequals.append (after.isSealed.append spelling.isSealed_render)))

/-- A part between commas is read as what its item assigns. -/
theorem assignment?_padded_body (item : Item) (front back : Blanks) :
    assignment? (front.text ++ (item.body ++ back.text)) = item.pair? := by
  cases item with
  | text s unmarked =>
    have hequals : '=' ∉ trim (front.text ++ (s ++ back.text)) := fun hc => by
      rcases List.mem_append.mp (mem_of_mem_trim hc) with hc | hc
      · exact front.not_mem (by decide) hc
      · rcases List.mem_append.mp hc with hc | hc
        · exact unmarked.2.2 hc
        · exact back.not_mem (by decide) hc
    rw [assignment?, body, splitFirst?_of_not_mem hequals]
    rfl
  | assignment name isTrimmed unmarked before after spelling =>
    have hread := assignment?_padded isTrimmed unmarked.2.2 spelling.isTrimmed_render
      front.isBlank_of_mem before.isBlank_of_mem after.isBlank_of_mem back.isBlank_of_mem
    rw [spelling.unquote_render] at hread
    rw [pair?, ← hread, body]
    simp only [List.append_assoc, List.cons_append]

end Item

/-- An item with blanks around it. -/
structure PaddedItem where
  front : Blanks
  item : Item
  back : Blanks

/-- The text between two commas. -/
def PaddedItem.render (p : PaddedItem) : Text := p.front.text ++ (p.item.body ++ p.back.text)

theorem PaddedItem.isSealed_render (p : PaddedItem) : Sealed p.render :=
  p.front.isSealed.append (p.item.isSealed_body.append p.back.isSealed)

theorem PaddedItem.assignment?_render (p : PaddedItem) : assignment? p.render = p.item.pair? :=
  p.item.assignment?_padded_body p.front p.back

/-- A parameter list is read as what its items assign. -/
theorem assignments_items (items : List PaddedItem) :
    assignments (List.intercalate [','] (items.map PaddedItem.render)) =
      items.filterMap fun p => p.item.pair? := by
  cases items with
  | nil => rfl
  | cons p items =>
    have hsealed : ∀ part ∈ (p :: items).map PaddedItem.render, Sealed part := by
      intro part hpart
      obtain ⟨q, -, rfl⟩ := List.mem_map.mp hpart
      exact q.isSealed_render
    rw [assignments_eq_filterMap, splitAtCommas_intercalate (by simp) hsealed,
      List.filterMap_map]
    exact List.filterMap_congr fun q _ => q.assignment?_render

/-! ### Header values -/

/-- A header value: a scheme, a space, and items between commas. -/
structure HeaderSpelling where
  lead : Blanks
  scheme : Text
  scheme_ne_nil : scheme ≠ []
  scheme_isTrimmed : IsTrimmed scheme
  scheme_unspaced : ' ' ∉ scheme
  items : List PaddedItem

namespace HeaderSpelling

/-- The text that is written. -/
def render (h : HeaderSpelling) : Text :=
  h.lead.text ++ (h.scheme ++ ' ' :: List.intercalate [','] (h.items.map PaddedItem.render))

/-- What the items assign, in order. -/
def pairs (h : HeaderSpelling) : List (Text × Text) := h.items.filterMap fun p => p.item.pair?

end HeaderSpelling

/-- **Every spelling is read.**  Whatever way a header value is written, the reader makes a header
of its scheme and stores what the items assign, with the first fault of these calls where there is
one. -/
theorem parse_spelling (h : HeaderSpelling) :
    parse h.render = (ofScheme h.scheme).bind fun header =>
      h.pairs.foldlM (fun header p => (header.set p.1 p.2).result) header := by
  rw [HeaderSpelling.render, parse_padded h.lead.isBlank_of_mem h.scheme_ne_nil h.scheme_isTrimmed
    h.scheme_unspaced, assignments_items]
  rfl

/-- Blanks, backslashes, a comma between quotes, parts that assign nothing, and a name that is set
twice. -/
theorem parse_mixed_spelling :
    let space : Blanks := ⟨" \t".toList, by decide⟩
    let h : HeaderSpelling := ⟨space, "DiGest".toList, by decide, by decide, by decide,
      [⟨.none, .assignment "A".toList (by decide) (by decide) .none .none
          (.bare [] (by decide) (by decide)), .none⟩,
        ⟨space, .assignment "q".toList (by decide) (by decide) space space
          (.quoted [.escaped 'x', .plain ',' (by decide), .escaped '"']), space⟩,
        ⟨.none, .text "junk".toList (by decide), .none⟩, ⟨.none, .text [] (by decide), .none⟩,
        ⟨.none, .assignment "a".toList (by decide) (by decide) .none .none
          (.bare "b=\\c".toList (by decide) (by decide)), .none⟩]⟩
    h.render = " \tDiGest A=, \tq \t= \t\"\\x,\\\"\" \t,junk,,a=b=\\c".toList ∧
      parse h.render = .ok ⟨"DiGest".toList,
        [("a".toList, "b=\\c".toList), ("q".toList, "x,\"".toList)]⟩ := by
  intro space h
  refine ⟨by decide, ?_⟩
  rw [parse_spelling h]
  decide

end ProxyAuth.Header
