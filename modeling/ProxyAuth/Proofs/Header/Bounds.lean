import Mathlib.Tactic
import ProxyAuth.Header.Parser
import ProxyAuth.Proofs.Text

/-!
# The bounds of a header

A header can only be built by naming its scheme and adding or setting parameters, and every such
step keeps all bounds.

* `header_store_of_fault`, `result_store_eq_ok_iff`: a refused call leaves the header as it is, and
  what an accepted one requires and does;
* `Edit`, `call`, `edited`, `Reachable`: the headers that some sequence of calls builds;
* `WellFormed`, `Reachable.wellFormed`: the bounds, and that every reachable header keeps them;
* `reachable_of_parse`: a header that is read from a text is reachable.
-/

namespace ProxyAuth.Header

open Text

/-! ### Token characters -/

/-- Token characters are visible ASCII characters. -/
theorem isTokenChar_range {c : Char} (h : isTokenChar c = true) :
    0x21 ≤ c.toNat ∧ c.toNat ≤ 0x7e := by
  rw [isTokenChar, Bool.or_eq_true] at h
  -- Letters and digits by their ranges, the other marks one by one.
  rcases h with h | h
  · simp only [Char.isAlphanum, Char.isAlpha, Char.isUpper, Char.isLower, Char.isDigit,
      Bool.or_eq_true, Bool.and_eq_true, decide_eq_true_eq, UInt32.le_iff_toNat_le, ge_iff_le] at h
    change ((0x41 ≤ c.toNat ∧ c.toNat ≤ 0x5a) ∨ (0x61 ≤ c.toNat ∧ c.toNat ≤ 0x7a)) ∨
      (0x30 ≤ c.toNat ∧ c.toNat ≤ 0x39) at h
    omega
  · have hall :
        ("!#$%&'*+-.^_`|~".toList.all fun d => 0x21 ≤ d.toNat && d.toNat ≤ 0x7e) = true := by
      decide
    simpa using List.all_eq_true.mp hall c (by simpa using h)

theorem isBlank_of_isTokenChar {c : Char} (h : isTokenChar c = true) : isBlank c = false := by
  obtain ⟨h1, h2⟩ := isTokenChar_range h
  simp only [isBlank, inRanges, blankRanges, List.any_cons, List.any_nil, Bool.or_false,
    Bool.or_eq_false_iff, Bool.and_eq_false_iff, decide_eq_false_iff_not]
  omega

theorem ne_of_isTokenChar {c d : Char} (h : isTokenChar c = true) (hd : isTokenChar d = false) :
    c ≠ d := by
  rintro rfl
  rw [h] at hd
  cases hd

theorem isTokenChar_toLower {c : Char} (h : isTokenChar c = true) :
    isTokenChar c.toLower = true := by
  rcases toLower_eq c with he | ⟨h1, h2, h3⟩
  · rwa [he]
  · have hl : c.toLower.isLower = true := by
      simp only [Char.isLower, Bool.and_eq_true, decide_eq_true_eq, UInt32.le_iff_toNat_le,
        ge_iff_le]
      change 0x61 ≤ c.toLower.toNat ∧ c.toLower.toNat ≤ 0x7a
      omega
    simp [isTokenChar, Char.isAlphanum, Char.isAlpha, hl]

theorem isToken_iff {s : Text} : isToken s = true ↔ s ≠ [] ∧ ∀ c ∈ s, isTokenChar c = true := by
  simp [isToken]

theorem isToken_lower {s : Text} (h : isToken s = true) : isToken (lower s) = true := by
  obtain ⟨hne, hall⟩ := isToken_iff.mp h
  refine isToken_iff.mpr ⟨by simpa [lower] using hne, fun c hc => ?_⟩
  obtain ⟨d, hd, rfl⟩ := List.mem_map.mp hc
  exact isTokenChar_toLower (hall d hd)

theorem not_mem_of_isToken {s : Text} (h : isToken s = true) {c : Char}
    (hc : isTokenChar c = false) : c ∉ s := fun hmem =>
  ne_of_isTokenChar ((isToken_iff.mp h).2 c hmem) hc rfl

/-- A token has no blank at all. -/
theorem isTrimmed_of_isToken {s : Text} (h : isToken s = true) : IsTrimmed s :=
  .of_forall fun c hc => isBlank_of_isTokenChar ((isToken_iff.mp h).2 c hc)

/-- A token has one byte for each character. -/
theorem byteLength_of_isToken {s : Text} (h : isToken s = true) : byteLength s = s.length :=
  byteLength_of_lt fun c hc => by
    have hrange := isTokenChar_range ((isToken_iff.mp h).2 c hc)
    omega

/-- Digits are token characters. -/
theorem isTokenChar_of_hexValue? {c : Char} (h : (hexValue? c).isSome) : isTokenChar c = true := by
  have hrange : (0x30 ≤ c.toNat ∧ c.toNat ≤ 0x39) ∨ (0x61 ≤ c.toNat ∧ c.toNat ≤ 0x66) ∨
      (0x41 ≤ c.toNat ∧ c.toNat ≤ 0x46) := by
    unfold hexValue? at h
    split_ifs at h with h1 h2 h3
    · exact .inl h1
    · exact .inr (.inl h2)
    · exact .inr (.inr h3)
    · cases h
  rw [isTokenChar, Bool.or_eq_true]
  left
  simp only [Char.isAlphanum, Char.isAlpha, Char.isUpper, Char.isLower, Char.isDigit,
    Bool.or_eq_true, Bool.and_eq_true, decide_eq_true_eq, UInt32.le_iff_toNat_le, ge_iff_le]
  change ((0x41 ≤ c.toNat ∧ c.toNat ≤ 0x5a) ∨ (0x61 ≤ c.toNat ∧ c.toNat ≤ 0x7a)) ∨
    (0x30 ≤ c.toNat ∧ c.toNat ≤ 0x39)
  omega

theorem isToken_toDigits {b : Nat} (h1 : 1 < b) (hb : b ≤ 16) (n : Nat) :
    isToken (Nat.toDigits b n) = true :=
  isToken_iff.mpr ⟨Nat.toDigits_ne_nil, fun _ hc =>
    isTokenChar_of_hexValue? (hexValue?_of_mem_toDigits h1 hb hc)⟩

theorem isToken_decimal (n : Nat) : isToken (decimal n) = true :=
  isToken_toDigits (by decide) (by decide) n

theorem isToken_hexadecimal (n : Nat) : isToken (hexadecimal n) = true :=
  isToken_toDigits (by decide) (by decide) n

/-! ### Legal parameters -/

/-- What the checks of one parameter let through. -/
theorem parameterFault?_eq_none_iff {name value : Text} :
    parameterFault? name value = none ↔
      byteLength name ≤ Part.name.limit ∧ isToken name = true ∧
        byteLength value ≤ Part.value.limit ∧ ∀ c ∈ value, isForbidden c = false := by
  unfold parameterFault?
  split_ifs with h1 h2 h3 h4
  · simp; omega
  · simp_all
  · simp; omega
  · simp_all
  · simp_all

/-- The spelling of a name does not matter to its checks. -/
theorem parameterFault?_lower {name value : Text} (h : parameterFault? name value = none) :
    parameterFault? (lower name) value = none := by
  obtain ⟨h1, h2, h3, h4⟩ := parameterFault?_eq_none_iff.mp h
  exact parameterFault?_eq_none_iff.mpr ⟨by rwa [byteLength_lower], isToken_lower h2, h3, h4⟩

/-! ### Sorted parameters -/

/-- Names in strictly ascending order, so that each occurs once. -/
def Sorted (ps : List (Text × Text)) : Prop := ps.Pairwise fun p q => p.1 < q.1

theorem mem_put {name value : Text} {ps : List (Text × Text)} {p : Text × Text}
    (h : p ∈ put name value ps) : p = (name, value) ∨ p ∈ ps := by
  induction ps with
  | nil => simpa using h
  | cons q rest ih =>
    obtain ⟨n, v⟩ := q
    unfold put at h
    split_ifs at h with h1 h2
    · rcases List.mem_cons.mp h with h | h
      · exact .inl h
      · exact .inr (List.mem_cons_of_mem _ h)
    · exact List.mem_cons.mp h
    · rcases List.mem_cons.mp h with h | h
      · exact .inr (h ▸ List.mem_cons_self)
      · exact (ih h).imp_right (List.mem_cons_of_mem _)

theorem sorted_put (name value : Text) {ps : List (Text × Text)} (h : Sorted ps) :
    Sorted (put name value ps) := by
  induction ps with
  | nil => simp [put, Sorted]
  | cons q rest ih =>
    obtain ⟨n, v⟩ := q
    obtain ⟨hq, hrest⟩ := List.pairwise_cons.mp h
    unfold put
    split_ifs with h1 h2
    · subst h1
      exact List.pairwise_cons.mpr ⟨hq, hrest⟩
    · refine List.pairwise_cons.mpr ⟨fun p hp => ?_, h⟩
      rcases List.mem_cons.mp hp with rfl | hp
      · exact h2
      · exact List.lt_trans h2 (hq p hp)
    · refine List.pairwise_cons.mpr ⟨fun p hp => ?_, ih hrest⟩
      -- The name is neither below `n` nor equal to it.
      rcases mem_put hp with rfl | hp
      · exact (List.le_iff_lt_or_eq.mp (List.not_lt.mp h2)).resolve_right (Ne.symm h1)
      · exact hq p hp

/-- A name below all others is not among them. -/
theorem lookup_eq_none_of_lt {name : Text} {ps : List (Text × Text)} (h : ∀ p ∈ ps, name < p.1) :
    ps.lookup name = none := by
  rw [List.lookup_eq_none_iff]
  intro p hp
  have hlt := h p hp
  simp only [bne_iff_ne, ne_eq]
  rintro rfl
  exact List.lt_irrefl _ hlt

/-- Putting a value in place of another keeps the number of parameters, a new name adds one. -/
theorem length_put (name value : Text) {ps : List (Text × Text)} (h : Sorted ps) :
    (put name value ps).length =
      if (ps.lookup name).isSome then ps.length else ps.length + 1 := by
  induction ps with
  | nil => rfl
  | cons q rest ih =>
    obtain ⟨n, v⟩ := q
    obtain ⟨hq, hrest⟩ := List.pairwise_cons.mp h
    by_cases h1 : name = n
    · subst h1
      simp [put]
    · have hb : (name == n) = false := by simpa using h1
      have hl : ((n, v) :: rest).lookup name = rest.lookup name := by
        simp [List.lookup_cons, hb]
      rw [hl]
      by_cases h2 : name < n
      · -- A name below the first of a sorted list is nowhere in it.
        have hnone : rest.lookup name = none :=
          lookup_eq_none_of_lt fun p hp => List.lt_trans h2 (hq p hp)
        simp [put, h1, h2, hnone]
      · simp only [put, if_neg h1, if_neg h2, List.length_cons, ih hrest]
        split_ifs <;> rfl

/-- A name above all others goes to the end. -/
theorem put_of_forall_lt {name value : Text} {ps : List (Text × Text)}
    (h : ∀ p ∈ ps, p.1 < name) : put name value ps = ps ++ [(name, value)] := by
  induction ps with
  | nil => rfl
  | cons q rest ih =>
    obtain ⟨n, v⟩ := q
    have hlt : n < name := h (n, v) List.mem_cons_self
    have h1 : name ≠ n := by
      rintro rfl
      exact List.lt_irrefl _ hlt
    have h2 : ¬ name < n := fun h' => List.lt_irrefl _ (List.lt_trans hlt h')
    rw [put, if_neg h1, if_neg h2, ih fun p hp => h p (List.mem_cons_of_mem _ hp)]
    rfl

/-! ### Building a header -/

section

variable {h stored : Header} {replace : Bool} {name value : Text} {fault : Fault}

/-- A refused call leaves the header as it is. -/
theorem header_store_of_fault (hf : (h.store replace name value).fault = some fault) :
    (h.store replace name value).header = h := by
  unfold store at hf ⊢
  cases hp : parameterFault? name value with
  | some _ => rfl
  | none =>
    simp only [hp] at hf ⊢
    split_ifs at hf ⊢
    · rfl
    · rfl

/-- What one accepted call requires and what it does. -/
theorem result_store_eq_ok_iff :
    (h.store replace name value).result = .ok stored ↔
      parameterFault? name value = none ∧
      ((h.get? name).isSome = true → replace = true) ∧
      ((h.get? name).isSome = false → h.parameters.length < maxParameters) ∧
      stored = { h with parameters := put (lower name) value h.parameters } := by
  rw [Stored.result_eq_ok_iff, store]
  cases hf : parameterFault? name value with
  | some fault => simp
  | none =>
    cases hg : (h.get? name).isSome with
    | true => cases replace <;> simp [eq_comm]
    | false =>
      by_cases hc : maxParameters ≤ h.parameters.length
      · simp [hc]
      · simp [hc, Nat.lt_of_not_le hc, eq_comm]

end

/-- One call that adds a parameter or, if it may replace one, sets it. -/
structure Edit where
  replace : Bool
  name : Text
  value : Text
  deriving DecidableEq

/-- What comes of a call. -/
def call (h : Header) (e : Edit) : Stored :=
  if e.replace then h.set e.name e.value else h.add e.name e.value

/-- The header after a call, accepted or not. -/
def edited (h : Header) (e : Edit) : Header := (h.call e).header

theorem call_eq_store (h : Header) (e : Edit) :
    h.call e = h.store e.replace e.name e.value := by
  unfold call
  cases e.replace <;> rfl

theorem edited_of_ok {h stored : Header} {e : Edit} (hs : (h.call e).result = .ok stored) :
    h.edited e = stored :=
  (Stored.result_eq_ok_iff.mp hs).2

/-- An accepted call stores its parameter. -/
theorem result_store_of_accepted {h : Header} {e : Edit} (ha : (h.call e).fault = none) :
    (h.store e.replace e.name e.value).result = .ok (h.edited e) := by
  rw [← call_eq_store]
  exact Stored.result_eq_ok_iff.mpr ⟨ha, rfl⟩

theorem edited_of_fault {h : Header} {e : Edit} {fault : Fault}
    (hf : (h.call e).fault = some fault) : h.edited e = h := by
  rw [edited, call_eq_store] at *
  exact header_store_of_fault hf

/-- The headers that some sequence of calls builds. -/
def Reachable (h : Header) : Prop :=
  ∃ scheme start, ofScheme scheme = .ok start ∧ ∃ edits : List Edit, edits.foldl edited start = h

theorem Reachable.edited {h : Header} (hr : Reachable h) (e : Edit) : Reachable (h.edited e) := by
  obtain ⟨scheme, start, hs, edits, rfl⟩ := hr
  exact ⟨scheme, start, hs, edits ++ [e], by rw [List.foldl_append]; rfl⟩

theorem reachable_of_ofScheme {scheme : Text} {h : Header} (hs : ofScheme scheme = .ok h) :
    Reachable h :=
  ⟨scheme, h, hs, [], rfl⟩

theorem Reachable.store {h stored : Header} (hr : Reachable h) {replace : Bool} {name value : Text}
    (hs : (h.store replace name value).result = .ok stored) : Reachable stored := by
  rw [← call_eq_store h ⟨replace, name, value⟩] at hs
  exact edited_of_ok hs ▸ hr.edited ⟨replace, name, value⟩

/-- Every way to read a header builds it by such calls. -/
theorem reachable_of_setAll {ps : List (Text × Text)} {h stored : Header} (hr : Reachable h)
    (hs : h.setAll ps = .ok stored) : Reachable stored := by
  induction ps generalizing h with
  | nil =>
    obtain rfl := Except.ok.inj hs
    exact hr
  | cons p rest ih =>
    change ((h.set p.1 p.2).result >>= fun next => setAll next rest) = .ok stored at hs
    obtain ⟨next, hset, hrest⟩ := bind_eq_ok.mp hs
    exact ih (hr.store hset) hrest

/-- A header that is read from a text is reachable. -/
theorem reachable_of_parse {s : Text} {h : Header} (hp : parse s = .ok h) : Reachable h := by
  unfold parse at hp
  split at hp
  · cases hp
  · obtain ⟨start, hstart, hall⟩ := bind_eq_ok.mp hp
    exact reachable_of_setAll (reachable_of_ofScheme hstart) hall

/-! ### The bounds -/

/-- The bounds of a header. -/
structure WellFormed (h : Header) : Prop where
  scheme_le : byteLength h.scheme ≤ Part.scheme.limit
  scheme_isToken : isToken h.scheme = true
  sorted : Sorted h.parameters
  lower_name : ∀ p ∈ h.parameters, lower p.1 = p.1
  legal : ∀ p ∈ h.parameters, parameterFault? p.1 p.2 = none
  length_le : h.parameters.length ≤ maxParameters

/-- A header of a legal scheme has no parameters yet. -/
theorem ofScheme_eq_ok_iff {scheme : Text} {h : Header} :
    ofScheme scheme = .ok h ↔
      byteLength scheme ≤ Part.scheme.limit ∧ isToken scheme = true ∧ h = ⟨scheme, []⟩ := by
  unfold ofScheme
  split_ifs with h1 h2
  · simp; omega
  · simp_all
  · constructor
    · intro he
      exact ⟨by omega, by simpa using h2, (Except.ok.inj he).symm⟩
    · rintro ⟨-, -, rfl⟩
      rfl

/-- One call keeps the bounds. -/
theorem WellFormed.edited {h : Header} (hw : WellFormed h) (e : Edit) :
    WellFormed (h.edited e) := by
  cases hfault : (h.call e).fault with
  | some fault => rwa [edited_of_fault hfault]
  | none =>
    obtain ⟨hf, -, hcount, he⟩ := result_store_eq_ok_iff.mp (result_store_of_accepted hfault)
    rw [he]
    refine ⟨hw.scheme_le, hw.scheme_isToken, sorted_put _ _ hw.sorted, fun p hp => ?_,
      fun p hp => ?_, ?_⟩
    · rcases mem_put hp with rfl | hp
      · exact lower_lower e.name
      · exact hw.lower_name p hp
    · rcases mem_put hp with rfl | hp
      · exact parameterFault?_lower hf
      · exact hw.legal p hp
    · have hl := hw.length_le
      show (put (lower e.name) e.value h.parameters).length ≤ _
      rw [length_put _ _ hw.sorted]
      split_ifs with hsome
      · exact hl
      · exact hcount (Bool.eq_false_iff.mpr hsome)

theorem WellFormed.foldl_edited {h : Header} (hw : WellFormed h) (edits : List Edit) :
    WellFormed (edits.foldl Header.edited h) := by
  induction edits generalizing h with
  | nil => exact hw
  | cons e rest ih => exact ih (hw.edited e)

/-- Every reachable header keeps the bounds. -/
theorem Reachable.wellFormed {h : Header} (hr : Reachable h) : WellFormed h := by
  obtain ⟨scheme, start, hs, edits, rfl⟩ := hr
  obtain ⟨hle, htoken, rfl⟩ := ofScheme_eq_ok_iff.mp hs
  have hstart : WellFormed ⟨scheme, []⟩ :=
    ⟨hle, htoken, List.Pairwise.nil, by simp, by simp, by simp⟩
  exact hstart.foldl_edited edits

end ProxyAuth.Header
