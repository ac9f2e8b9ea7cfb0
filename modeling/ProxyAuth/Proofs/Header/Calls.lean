import Mathlib.Tactic
import ProxyAuth.Proofs.Header.Lookup

/-!
# Calls that build a header

A call either stores its parameter or is refused, and then it has done nothing.  So the header after
any calls is the one that the accepted calls among them build, and a look-up finds the value of the
last accepted call for its name.

* `IsName`, `IsValue`, `InBounds`: what a header may hold;
* `has_iff`, `fault_call_eq_some_iff`: why a call is refused whose name and value are legal;
* `accepted`, `foldlM_accepted`, `get?_foldl_edited`: what is left of a list of calls;
* `calls_atomic_within_bounds`: all of it, for every header that calls can build.
-/

namespace ProxyAuth.Header

open Text

variable {h stored : Header} {name value : Text} {fault : Fault}

/-! ### Bounds -/

/-- What the name of a parameter may be, in any letter case. -/
structure IsName (name : Text) : Prop where
  isToken : isToken name = true
  length_le : byteLength name ≤ 64

/-- What the value of a parameter may be. -/
structure IsValue (value : Text) : Prop where
  length_le : byteLength value ≤ 2048
  eq_tab_of_isControl : ∀ c ∈ value, isControl c = true → c = '\t'

/-- The bounds that a header keeps. -/
structure InBounds (h : Header) : Prop where
  length_le : h.parameters.length ≤ 30
  distinct : (h.parameters.map Prod.fst).Nodup
  lower_name : ∀ p ∈ h.parameters, lower p.1 = p.1
  name : ∀ p ∈ h.parameters, isToken p.1 = true ∧ 1 ≤ byteLength p.1 ∧ byteLength p.1 ≤ 64
  value : ∀ p ∈ h.parameters, IsValue p.2

instance (name : Text) : Decidable (IsName name) :=
  decidable_of_iff (isToken name = true ∧ byteLength name ≤ 64)
    ⟨fun h => ⟨h.1, h.2⟩, fun h => ⟨h.isToken, h.length_le⟩⟩

theorem isForbidden_eq_false_iff {c : Char} :
    isForbidden c = false ↔ (isControl c = true → c = '\t') := by
  by_cases hcontrol : isControl c = true <;> simp [isForbidden, hcontrol]

theorem isValue_iff :
    IsValue value ↔ byteLength value ≤ Part.value.limit ∧ ∀ c ∈ value, isForbidden c = false := by
  simp only [isForbidden_eq_false_iff]
  exact ⟨fun h => ⟨h.length_le, h.eq_tab_of_isControl⟩, fun h => ⟨h.1, h.2⟩⟩

instance (value : Text) : Decidable (IsValue value) :=
  decidable_of_iff (byteLength value ≤ Part.value.limit ∧ value.any isForbidden = false) (by
    rw [isValue_iff, List.any_eq_false]
    simp only [Bool.not_eq_true])

/-- A parameter is faultless if its name and its value are legal. -/
theorem parameterFault?_eq_none_iff_isName :
    parameterFault? name value = none ↔ IsName name ∧ IsValue value := by
  rw [parameterFault?_eq_none_iff, isValue_iff]
  exact ⟨fun ⟨hle, htoken, hvalue⟩ => ⟨⟨htoken, hle⟩, hvalue⟩,
    fun ⟨⟨htoken, hle⟩, hvalue⟩ => ⟨hle, htoken, hvalue⟩⟩

theorem one_le_byteLength_of_isToken (h : isToken name = true) : 1 ≤ byteLength name := by
  rw [byteLength_of_isToken h]
  exact List.length_pos_iff.mpr (isToken_iff.mp h).1

/-- Names in ascending order are different. -/
theorem Sorted.nodup {ps : List (Text × Text)} (h : Sorted ps) : (ps.map Prod.fst).Nodup := by
  refine List.pairwise_map.mpr (h.imp fun {p q} hlt he => ?_)
  rw [he] at hlt
  exact List.lt_irrefl _ hlt

theorem WellFormed.inBounds (hw : WellFormed h) : InBounds h where
  length_le := hw.length_le
  distinct := hw.sorted.nodup
  lower_name := hw.lower_name
  name p hp := by
    have hname := (parameterFault?_eq_none_iff_isName.mp (hw.legal p hp)).1
    exact ⟨hname.isToken, one_le_byteLength_of_isToken hname.isToken, hname.length_le⟩
  value p hp := (parameterFault?_eq_none_iff_isName.mp (hw.legal p hp)).2

/-! ### One call -/

/-- Some parameter has the name, in any letter case. -/
def Has (h : Header) (name : Text) : Prop := ∃ p ∈ h.parameters, sameIgnoringCase p.1 name = true

theorem has_iff (hw : WellFormed h) : h.Has name ↔ (h.get? name).isSome = true := by
  rw [get?, List.lookup_isSome_iff]
  refine exists_congr fun p => and_congr_right fun hp => ?_
  rw [sameIgnoringCase_iff, hw.lower_name p hp, beq_iff_eq, eq_comm]

/-- What an accepted call does to every look-up. -/
theorem get?_edited {e : Edit} (ha : (h.call e).fault = none) (other : Text) :
    (h.edited e).get? other =
      if lower other = lower e.name then some e.value else h.get? other :=
  get?_of_store (result_store_of_accepted ha) other

/-- A call with a legal name and a legal value is refused for a name that is there and must not be
replaced, or for a new name in a full header. -/
theorem fault_call_eq_some_iff {e : Edit} (hw : WellFormed h) (hname : IsName e.name)
    (hvalue : IsValue e.value) : (h.call e).fault = some fault ↔
      (h.Has e.name ∧ e.replace = false ∧ fault = .repeatedName (lower e.name)) ∨
        (¬ h.Has e.name ∧ h.parameters.length = 30 ∧ fault = .tooManyParameters) := by
  have hfull : maxParameters ≤ h.parameters.length ↔ h.parameters.length = 30 :=
    ⟨fun hle => Nat.le_antisymm hw.length_le hle, fun he => he.ge⟩
  rw [call_eq_store, has_iff hw, ← hfull, store,
    parameterFault?_eq_none_iff_isName.mpr ⟨hname, hvalue⟩]
  dsimp only
  cases (h.get? e.name).isSome with
  | true => cases e.replace <;> simp [eq_comm]
  | false =>
    by_cases hcount : maxParameters ≤ h.parameters.length
    · simp [hcount, eq_comm (a := Fault.tooManyParameters)]
    · simp [hcount]

/-! ### Many calls -/

/-- The calls among many that are accepted, one after the other. -/
def accepted : Header → List Edit → List Edit
  | _, [] => []
  | h, e :: edits =>
      if (h.call e).fault = none then e :: accepted (h.edited e) edits
      else accepted (h.edited e) edits

/-- The accepted calls by themselves are all accepted, and build the same header. -/
theorem foldlM_accepted (h : Header) (edits : List Edit) :
    (accepted h edits).foldlM (fun h e => (h.call e).result) h = .ok (edits.foldl edited h) := by
  induction edits generalizing h with
  | nil => rfl
  | cons e edits ih =>
    rw [accepted, List.foldl_cons]
    cases hf : (h.call e).fault with
    | none =>
      have hresult : (h.call e).result = .ok (h.edited e) := Stored.result_eq_ok_iff.mpr ⟨hf, rfl⟩
      rw [if_pos rfl]
      exact bind_eq_ok.mpr ⟨h.edited e, hresult, ih _⟩
    | some fault =>
      -- The refused call is left out, so the others start from the header that it was made on.
      rw [if_neg nofun, edited_of_fault hf]
      exact ih h

/-- A look-up finds the value of the last accepted call for the name, or else what was there. -/
theorem get?_foldl_edited (h : Header) (edits : List Edit) (other : Text) :
    (edits.foldl edited h).get? other =
      (lastValue? ((accepted h edits).map fun e => (e.name, e.value)) other).or (h.get? other) := by
  induction edits generalizing h with
  | nil => rfl
  | cons e edits ih =>
    rw [accepted, List.foldl_cons]
    cases hf : (h.call e).fault with
    | none =>
      rw [ih, if_pos rfl, List.map_cons, lastValue?_cons, get?_edited hf, Option.or_assoc]
      by_cases hname : lower e.name = lower other
      · simp [hname]
      · simp [hname, Ne.symm hname]
    | some fault => rw [if_neg nofun, edited_of_fault hf, ih]

/-- **Calls are atomic and keep the bounds.**  Every header that calls can build, hence every header
that is read from a text, has at most 30 parameters, whose names are different tokens in lower case,
of 64 bytes at most, and whose values have at most 2048 bytes and no control character but the tab.
A refused call leaves it as it is.  An accepted one has a legal name and a legal value, and of all
look-ups it changes those of its own name, in any letter case.  With a legal name and a legal value
a call is refused only for a name that is there already, if it must not replace, or for a new name
in a full header.  After any calls the header is the one that the accepted ones build by themselves,
and a look-up finds the value of the last of them for its name. -/
theorem calls_atomic_within_bounds :
    (∀ h, Reachable h → InBounds h) ∧
    (∀ s h, parse s = .ok h → Reachable h) ∧
    (∀ h, Reachable h → ∀ e : Edit,
      (∀ fault, (h.call e).fault = some fault → (h.call e).header = h) ∧
      ((h.call e).fault = none → (h.call e).header.scheme = h.scheme ∧
        IsName e.name ∧ IsValue e.value ∧ ∀ other, (h.call e).header.get? other =
          if sameIgnoringCase other e.name = true then some e.value else h.get? other) ∧
      (IsName e.name → IsValue e.value → ∀ fault, (h.call e).fault = some fault ↔
        (h.Has e.name ∧ e.replace = false ∧ fault = .repeatedName (lower e.name)) ∨
          (¬ h.Has e.name ∧ h.parameters.length = 30 ∧ fault = .tooManyParameters))) ∧
    ∀ h edits,
      (accepted h edits).foldlM (fun h e => (h.call e).result) h = .ok (edits.foldl edited h) ∧
      ∀ other, (edits.foldl edited h).get? other =
        (lastValue? ((accepted h edits).map fun e => (e.name, e.value)) other).or
          (h.get? other) := by
  refine ⟨fun h hr => hr.wellFormed.inBounds, fun s h => reachable_of_parse, fun h hr e =>
    ⟨fun fault => edited_of_fault, fun haccepted => ?_,
      fun hname hvalue fault => fault_call_eq_some_iff hr.wellFormed hname hvalue⟩,
    fun h edits => ⟨foldlM_accepted h edits, get?_foldl_edited h edits⟩⟩
  have hstore := result_store_of_accepted haccepted
  obtain ⟨hname, hvalue⟩ :=
    parameterFault?_eq_none_iff_isName.mp (result_store_eq_ok_iff.mp hstore).1
  simp only [sameIgnoringCase_iff]
  exact ⟨scheme_of_store hstore, hname, hvalue, get?_edited haccepted⟩

/-- A full header: another name is refused, one that is there is refused or replaced, in any letter
case, and a refused call is not seen afterwards. -/
theorem calls_atomic_for_full_header :
    let start : Header := ⟨"Digest".toList, []⟩
    let numbered (n : Nat) : Edit := ⟨false, 'P' :: decimal n, ['v']⟩
    let h := ((List.range 30).map numbered).foldl edited start
    let extra : Edit := ⟨true, "extra".toList, []⟩
    let edits : List Edit := [⟨true, "p7".toList, ['\t']⟩, ⟨false, "P7".toList, []⟩]
    Reachable h ∧ (h.call extra).fault = some .tooManyParameters ∧ (h.call extra).header = h ∧
      (edits.foldl edited h).get? "P7".toList = some ['\t'] := by
  intro start numbered h extra edits
  have hr : Reachable h := ⟨"Digest".toList, start, by decide, (List.range 30).map numbered, rfl⟩
  have hfull : h.parameters.length = 30 := by decide +kernel
  have hnew : h.get? extra.name = none := by decide +kernel
  have haccepted : accepted h edits = [⟨true, "p7".toList, ['\t']⟩] := by decide +kernel
  clear_value h
  obtain ⟨-, -, hcall, hrun⟩ := calls_atomic_within_bounds
  obtain ⟨hrefused, -, hfault⟩ := hcall h hr extra
  have hextra : (h.call extra).fault = some .tooManyParameters := by
    refine (hfault (by decide) (by decide) _).mpr (.inr ⟨?_, hfull, rfl⟩)
    rw [has_iff hr.wellFormed, hnew]
    decide
  refine ⟨hr, hextra, hrefused _ hextra, ?_⟩
  rw [(hrun h edits).2, haccepted]
  rfl

end ProxyAuth.Header
