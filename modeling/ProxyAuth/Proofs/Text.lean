import Mathlib
import ProxyAuth.Proofs.Fallible
import ProxyAuth.Text.Blank
import ProxyAuth.Text.Numeral
import ProxyAuth.Text.Split

/-!
# Cutting, numerals, trimming and letter case

What the readers of texts rely on.  A text is cut at a mark exactly where the mark first occurs;
trimming removes the blanks around a text that is trimmed itself, and nothing else; lower case
changes neither lengths nor the number of bytes.

* `splitFirst?_append_cons`, `splitFirst?_of_first`: the cut undoes putting two parts around a mark;
* `mem_intercalate`, `infix_append_cons`: joining texts adds nothing but the mark;
* `value?_eq_none`: a numeral consists of digits;
* `trim_padded`, `isTrimmed_trim`: trimming undoes putting blanks around a trimmed text, and leaves
  nothing else;
* `trim_append_cons`: a text is trimmed on either side of a mark;
* `lower_lower`, `byteLength_lower`: lower case is stable and keeps the number of bytes.
-/

namespace ProxyAuth.Text

/-! ### Cutting at a mark -/

section Cutting

variable {α : Type} [DecidableEq α] {mark : α}

theorem splitFirst?_cons_self (rest : List α) :
    splitFirst? [mark] (mark :: rest) = some ([], rest) := by
  simp [splitFirst?]

theorem splitFirst?_cons_of_ne {c : α} (h : c ≠ mark) (rest : List α) :
    splitFirst? [mark] (c :: rest) =
      (splitFirst? [mark] rest).map fun (before, after) => (c :: before, after) := by
  have hp : [mark].isPrefixOf (c :: rest) = false := by
    simpa [List.isPrefixOf] using fun he => h he.symm
  rw [splitFirst?, hp]
  rfl

/-- The cut undoes putting two parts around a mark that the first does not contain. -/
theorem splitFirst?_append_cons {before : List α} (h : mark ∉ before) (after : List α) :
    splitFirst? [mark] (before ++ mark :: after) = some (before, after) := by
  induction before with
  | nil => exact splitFirst?_cons_self after
  | cons c rest ih =>
    obtain ⟨hc, hrest⟩ : c ≠ mark ∧ mark ∉ rest := by
      simpa [List.mem_cons, eq_comm] using h
    rw [List.cons_append, splitFirst?_cons_of_ne hc, ih hrest]
    rfl

/-- Two texts around a mark are told by it if the mark is not in the first. -/
theorem append_cons_inj {before before' after after' : List α} (h : mark ∉ before)
    (h' : mark ∉ before') (heq : before ++ mark :: after = before' ++ mark :: after') :
    before = before' ∧ after = after' := by
  have hcut := splitFirst?_append_cons h after
  rw [heq, splitFirst?_append_cons h'] at hcut
  obtain ⟨hbefore, hafter⟩ := Prod.mk.inj (Option.some.inj hcut)
  exact ⟨hbefore.symm, hafter.symm⟩

/-- No piece has the mark. -/
theorem not_mem_of_mem_splitOn {s piece : List α} (h : piece ∈ s.splitOn mark) : mark ∉ piece := by
  induction s generalizing piece with
  | nil =>
    rw [List.splitOn_nil] at h
    obtain rfl := List.mem_singleton.mp h
    exact List.not_mem_nil
  | cons c rest ih =>
    rw [List.splitOn_cons_eq_if_modifyHead] at h
    split_ifs at h with hc
    · rcases List.mem_cons.mp h with rfl | h
      · exact List.not_mem_nil
      · exact ih h
    · obtain ⟨first, pieces, hpieces⟩ := List.exists_cons_of_ne_nil (List.splitOn_ne_nil mark rest)
      rw [hpieces] at h ih
      rcases List.mem_cons.mp h with rfl | h
      · rw [List.mem_cons, not_or]
        exact ⟨fun he => hc (by simp [he]), ih List.mem_cons_self⟩
      · exact ih (List.mem_cons_of_mem _ h)

/-- Without the mark there is nothing to cut. -/
theorem splitFirst?_of_not_mem {s : List α} (h : mark ∉ s) : splitFirst? [mark] s = none := by
  induction s with
  | nil => simp [splitFirst?]
  | cons c rest ih =>
    obtain ⟨hc, hrest⟩ : c ≠ mark ∧ mark ∉ rest := by
      simpa [List.mem_cons, eq_comm] using h
    rw [splitFirst?_cons_of_ne hc, ih hrest]
    rfl

/-- A text is cut unless the mark is nowhere in it. -/
theorem splitFirst?_eq_none_iff {mark s : List α} : splitFirst? mark s = none ↔ ¬ mark <:+: s := by
  induction s with
  | nil => by_cases hmark : mark = [] <;> simp [splitFirst?, hmark]
  | cons c rest ih =>
    rw [splitFirst?, List.infix_cons_iff]
    split_ifs with hp
    · simp [List.isPrefixOf_iff_prefix.mp hp]
    · rw [Option.map_eq_none_iff, ih]
      simp [List.isPrefixOf_iff_prefix.not.mp hp]

/-- The cut is at the first place where the mark is complete. -/
theorem splitFirst?_of_first {mark before : List α} (hmark : mark ≠ [])
    (h : ¬ mark <:+: (before ++ mark).dropLast) (after : List α) :
    splitFirst? mark (before ++ mark ++ after) = some (before, after) := by
  induction before with
  | nil =>
    obtain ⟨m, mark, rfl⟩ := List.exists_cons_of_ne_nil hmark
    have hp : (m :: mark).isPrefixOf (m :: mark ++ after) = true :=
      List.isPrefixOf_iff_prefix.mpr (List.prefix_append _ _)
    rw [List.nil_append, List.cons_append, splitFirst?, ← List.cons_append, hp]
    simp
  | cons c before ih =>
    rw [List.dropLast_append_of_ne_nil hmark, List.cons_append,
      ← List.dropLast_append_of_ne_nil hmark, List.infix_cons_iff, not_or] at h
    obtain ⟨hfront, hrest⟩ := h
    have hp : ¬ mark.isPrefixOf (c :: (before ++ mark ++ after)) = true := by
      -- The mark is shorter than what stands in front of the place where it is complete.
      rw [List.isPrefixOf_iff_prefix]
      intro hprefix
      refine hfront (List.prefix_of_prefix_length_le hprefix ?_ ?_)
      · have hdrop : (before ++ mark).dropLast <+: before ++ mark ++ after :=
          (List.dropLast_prefix _).trans (List.prefix_append _ _)
        exact List.cons_prefix_cons.mpr ⟨rfl, hdrop⟩
      · simp only [List.length_cons, List.length_dropLast, List.length_append]
        omega
    rw [List.cons_append, List.cons_append, splitFirst?, if_neg hp, ih hrest]
    rfl

end Cutting

/-! ### Joining texts -/

/-- What occurs in joined texts occurs between them or in one of them. -/
theorem mem_intercalate {α : Type} {c : α} {between : List α} {texts : List (List α)}
    (h : c ∈ between.intercalate texts) : c ∈ between ∨ ∃ s ∈ texts, c ∈ s := by
  induction texts with
  | nil => cases h
  | cons s rest ih =>
    cases rest with
    | nil =>
      rw [List.intercalate_singleton] at h
      exact .inr ⟨s, List.mem_cons_self, h⟩
    | cons s' rest =>
      rw [List.intercalate_cons_cons, List.append_assoc] at h
      rcases List.mem_append.mp h with h | h
      · exact .inr ⟨s, List.mem_cons_self, h⟩
      · rcases List.mem_append.mp h with h | h
        · exact .inl h
        · exact (ih h).imp_right fun ⟨t, ht, h⟩ => ⟨t, List.mem_cons_of_mem _ ht, h⟩

/-- Joined texts end as the last of them does. -/
theorem getLast?_intercalate {α : Type} (between : List α) {texts : List (List α)}
    (h : ∀ s ∈ texts, s ≠ []) :
    (between.intercalate texts).getLast? = texts.getLast?.bind List.getLast? := by
  induction texts with
  | nil => rfl
  | cons s rest ih =>
    cases rest with
    | nil => rw [List.intercalate_singleton]; rfl
    | cons s' rest =>
      have hrest := ih fun t ht => h t (List.mem_cons_of_mem _ ht)
      obtain ⟨c, hc⟩ : ∃ c, (between.intercalate (s' :: rest)).getLast? = some c := by
        have hlast : (s' :: rest).getLast (List.cons_ne_nil _ _) ≠ [] :=
          h _ (List.mem_cons_of_mem _ (List.getLast_mem _))
        rw [hrest, List.getLast?_eq_some_getLast (List.cons_ne_nil _ _), Option.bind_some]
        exact ⟨_, List.getLast?_eq_some_getLast hlast⟩
      rw [List.intercalate_cons_cons, List.getLast?_append, hc, Option.some_or, ← hc, hrest,
        List.getLast?_cons_cons]

/-- What does not contain the mark lies on one side of it. -/
theorem infix_append_cons {α : Type} {mark : α} {s before after : List α} (h : mark ∉ s)
    (hinside : s <:+: before ++ mark :: after) : s <:+: before ∨ s <:+: after := by
  obtain ⟨front, back, heq⟩ := hinside
  rcases List.append_eq_append_iff.mp heq with ⟨more, rfl, -⟩ | ⟨more, hfront, hback⟩
  · exact .inl ⟨front, more, rfl⟩
  · cases more with
    | nil =>
      rw [List.append_nil] at hfront
      exact .inl ⟨front, [], by rw [List.append_nil, hfront]⟩
    | cons c more =>
      obtain ⟨rfl, rfl⟩ := List.cons_eq_cons.mp hback
      -- The mark belongs to what stands in front of the text.
      rcases List.append_eq_append_iff.mp hfront with ⟨rest, -, rfl⟩ | ⟨rest, -, hmore⟩
      · exact absurd (List.mem_append_right _ List.mem_cons_self) h
      · cases rest with
        | nil =>
          rw [List.nil_append] at hmore
          exact absurd (hmore ▸ List.mem_cons_self) h
        | cons d rest =>
          obtain ⟨rfl, rfl⟩ := List.cons_eq_cons.mp hmore
          exact .inr ⟨rest, back, rfl⟩

/-! ### Numerals -/

/-- The characters of a numeral are digits of its base. -/
theorem exists_digitChar_of_mem_toDigits {b : Nat} (h1 : 1 < b) {n : Nat} {c : Char}
    (h : c ∈ Nat.toDigits b n) : ∃ d < b, c = Nat.digitChar d := by
  induction n using Nat.strongRecOn with
  | ind n ih =>
    rw [Nat.toDigits_eq_if h1] at h
    split_ifs at h with hn
    · exact ⟨n, hn, List.mem_singleton.mp h⟩
    · rcases List.mem_append.mp h with h | h
      · exact ih (n / b) (Nat.div_lt_self (by omega) h1) h
      · exact ⟨n % b, Nat.mod_lt n (by omega), List.mem_singleton.mp h⟩

/-- A digit of a numeral has a value. -/
theorem hexValue?_of_mem_toDigits {b : Nat} (h1 : 1 < b) (hb : b ≤ 16) {n : Nat} {c : Char}
    (h : c ∈ Nat.toDigits b n) : (hexValue? c).isSome := by
  obtain ⟨d, hd, rfl⟩ := exists_digitChar_of_mem_toDigits h1 h
  rw [hexValue?_digitChar d (by omega)]
  rfl

theorem not_mem_decimal {c : Char} (hc : hexValue? c = none) (n : Nat) : c ∉ decimal n := by
  intro h
  have := hexValue?_of_mem_toDigits (by decide) (by decide) h
  simp [hc] at this

theorem hexadecimal_ne_nil (n : Nat) : hexadecimal n ≠ [] := Nat.toDigits_ne_nil

/-- No numeral has a character that is no digit. -/
theorem value?_eq_none {base : Nat} {s : Text} {c : Char} (hc : c ∈ s) (h : hexValue? c = none) :
    value? base s = none := by
  rw [value?, mapM_eq_none hc (by rw [digitValue?, h]; rfl)]
  split_ifs <;> rfl

/-! ### Trimming -/

/-- No blank is a visible ASCII character. -/
theorem isBlank_range {c : Char} (h : isBlank c = true) : c.toNat ≤ 0x20 ∨ 0x85 ≤ c.toNat := by
  simp only [isBlank, inRanges, blankRanges, List.any_cons, List.any_nil, Bool.or_false,
    Bool.or_eq_true, Bool.and_eq_true, decide_eq_true_eq] at h
  omega

theorem ne_of_isBlank {c d : Char} (h : isBlank c = true) (hd : isBlank d = false) : c ≠ d := by
  rintro rfl
  rw [h] at hd
  cases hd

/-- A blank is no digit. -/
theorem hexValue?_of_isBlank {c : Char} (h : isBlank c = true) : hexValue? c = none := by
  have hrange := isBlank_range h
  have hdigit (low high : Char) (hlow : 0x21 ≤ low.toNat) (hhigh : high.toNat ≤ 0x84) :
      ¬ (low ≤ c ∧ c ≤ high) := by
    rintro ⟨h1, h2⟩
    have h1 : low.toNat ≤ c.toNat := h1
    have h2 : c.toNat ≤ high.toNat := h2
    omega
  rw [hexValue?, if_neg (hdigit _ _ (by decide) (by decide)),
    if_neg (hdigit _ _ (by decide) (by decide)), if_neg (hdigit _ _ (by decide) (by decide))]

/-- No blank stands at either end. -/
structure IsTrimmed (s : Text) : Prop where
  head : ∀ c, s.head? = some c → isBlank c = false
  last : ∀ c, s.getLast? = some c → isBlank c = false

/-- A text without any blank is trimmed. -/
theorem IsTrimmed.of_forall {s : Text} (h : ∀ c ∈ s, isBlank c = false) : IsTrimmed s where
  head c hc := h c (List.mem_of_head? hc)
  last c hc := h c (List.mem_of_getLast? hc)

theorem trimStart_append {blanks : Text} (h : ∀ c ∈ blanks, isBlank c = true) (s : Text) :
    trimStart (blanks ++ s) = trimStart s :=
  List.dropWhile_append_of_pos h

theorem trimEnd_append {blanks : Text} (h : ∀ c ∈ blanks, isBlank c = true) (s : Text) :
    trimEnd (s ++ blanks) = trimEnd s := by
  unfold trimEnd
  rw [List.reverse_append, List.dropWhile_append_of_pos]
  intro c hc
  exact h c (List.mem_reverse.mp hc)

/-- A text that starts with no blank is kept at its start. -/
theorem trimStart_eq_self {s : Text} (h : ∀ c, s.head? = some c → isBlank c = false) :
    trimStart s = s := by
  cases s with
  | nil => rfl
  | cons c rest => exact List.dropWhile_cons_of_neg (by simp [h c rfl])

/-- A text that ends in no blank is kept at its end. -/
theorem trimEnd_eq_self {s : Text} (h : ∀ c, s.getLast? = some c → isBlank c = false) :
    trimEnd s = s := by
  have hr : trimStart s.reverse = s.reverse :=
    trimStart_eq_self fun c hc => h c (by rwa [List.head?_reverse] at hc)
  show (trimStart s.reverse).reverse = s
  rw [hr, List.reverse_reverse]

theorem trim_eq_self {s : Text} (h : IsTrimmed s) : trim s = s := by
  rw [trim, trimStart_eq_self h.head, trimEnd_eq_self h.last]

/-- Trimming undoes putting blanks around a trimmed text. -/
theorem trim_padded {front s back : Text} (hf : ∀ c ∈ front, isBlank c = true) (hs : IsTrimmed s)
    (hb : ∀ c ∈ back, isBlank c = true) : trim (front ++ (s ++ back)) = s := by
  rw [trim, trimStart_append hf]
  cases s with
  | nil =>
    have hall : trimStart back = [] := List.dropWhile_eq_nil_iff.mpr hb
    rw [List.nil_append, hall, trimEnd_nil]
  | cons c rest =>
    have hhead : trimStart (c :: rest ++ back) = c :: rest ++ back :=
      trimStart_eq_self fun d hd => hs.head d (by simpa using hd)
    rw [hhead, trimEnd_append hb, trimEnd_eq_self hs.last]

theorem trim_append {front s : Text} (hf : ∀ c ∈ front, isBlank c = true) (hs : IsTrimmed s) :
    trim (front ++ s) = s := by
  have h := trim_padded hf hs (List.forall_mem_nil _)
  rwa [List.append_nil] at h

theorem trim_space_cons {s : Text} (h : IsTrimmed s) : trim (' ' :: s) = s := by
  have hspace : ∀ c ∈ [' '], isBlank c = true := List.forall_mem_singleton.mpr (by decide)
  exact trim_append hspace h

/-- A text of blanks is trimmed away. -/
theorem trim_eq_nil {s : Text} (h : ∀ c ∈ s, isBlank c = true) : trim s = [] := by
  rw [trim, trimStart, List.dropWhile_eq_nil_iff.mpr h, trimEnd_nil]

theorem suffix_trimStart (s : Text) : trimStart s <:+ s := List.dropWhile_suffix _

/-- Blanks make up the difference between a text and what trimming its end leaves. -/
theorem exists_trimEnd_append (s : Text) :
    ∃ blanks, (∀ c ∈ blanks, isBlank c = true) ∧ s = trimEnd s ++ blanks := by
  refine ⟨(s.reverse.takeWhile isBlank).reverse, fun c hc => ?_, ?_⟩
  · exact List.mem_takeWhile_imp (List.mem_reverse.mp hc)
  · rw [trimEnd, ← List.reverse_append, List.takeWhile_append_dropWhile, List.reverse_reverse]

theorem not_isBlank_head_trimStart {s : Text} {c : Char} (h : (trimStart s).head? = some c) :
    isBlank c = false := by
  have hnot := List.head?_dropWhile_not isBlank s
  rw [trimStart] at h
  rwa [h] at hnot

theorem not_isBlank_last_trimEnd {s : Text} {c : Char} (h : (trimEnd s).getLast? = some c) :
    isBlank c = false := by
  rw [trimEnd, List.getLast?_reverse] at h
  exact not_isBlank_head_trimStart h

/-- What is left by trimming is trimmed. -/
theorem isTrimmed_trim (s : Text) : IsTrimmed (trim s) where
  head c hc := by
    obtain ⟨blanks, -, hs⟩ := exists_trimEnd_append (trimStart s)
    have hhead : (trimStart s).head? = some c := by
      have hc : (trimEnd (trimStart s)).head? = some c := hc
      rw [hs, List.head?_append, hc, Option.some_or]
    exact not_isBlank_head_trimStart hhead
  last c hc := not_isBlank_last_trimEnd hc

theorem isTrimmed_iff {s : Text} : IsTrimmed s ↔ trim s = s :=
  ⟨trim_eq_self, fun h => h ▸ isTrimmed_trim s⟩

instance (s : Text) : Decidable (IsTrimmed s) := decidable_of_iff' _ isTrimmed_iff

theorem mem_of_mem_trim {s : Text} {c : Char} (h : c ∈ trim s) : c ∈ s := by
  obtain ⟨blanks, -, hs⟩ := exists_trimEnd_append (trimStart s)
  refine (suffix_trimStart s).subset ?_
  rw [hs]
  exact List.mem_append_left _ h

theorem trimStart_append_cons {c : Char} (h : isBlank c = false) (front back : Text) :
    trimStart (front ++ c :: back) = trimStart front ++ c :: back := by
  have hcons (d : Char) (hd : isBlank d = false) (s : Text) : trimStart (d :: s) = d :: s :=
    List.dropWhile_cons_of_neg (by simp [hd])
  induction front with
  | nil => exact hcons c h back
  | cons d front ih =>
    by_cases hd : isBlank d = true
    · rw [List.cons_append, trimStart, List.dropWhile_cons_of_pos hd, trimStart,
        List.dropWhile_cons_of_pos hd]
      exact ih
    · rw [Bool.not_eq_true] at hd
      rw [List.cons_append, hcons d hd, hcons d hd, List.cons_append]

theorem trimEnd_append_cons {c : Char} (h : isBlank c = false) (front back : Text) :
    trimEnd (front ++ c :: back) = front ++ c :: trimEnd back := by
  have hreverse : (front ++ c :: back).reverse = back.reverse ++ c :: front.reverse := by simp
  show (trimStart (front ++ c :: back).reverse).reverse =
    front ++ c :: (trimStart back.reverse).reverse
  rw [hreverse, trimStart_append_cons h]
  simp

/-- A text is trimmed on either side of a mark that is no blank. -/
theorem trim_append_cons {c : Char} (h : isBlank c = false) (front back : Text) :
    trim (front ++ c :: back) = trimStart front ++ c :: trimEnd back := by
  rw [trim, trimStart_append_cons h, trimEnd_append_cons h]

/-- Blanks behind a text do not count. -/
theorem trim_append_blanks {blanks : Text} (h : ∀ c ∈ blanks, isBlank c = true) (s : Text) :
    trim (s ++ blanks) = trim s := by
  by_cases hs : ∀ c ∈ s, isBlank c = true
  · rw [trim_eq_nil hs, trim_eq_nil fun c hc => (List.mem_append.mp hc).elim (hs c) (h c)]
  · obtain ⟨c, hc, hblank⟩ : ∃ c ∈ s, isBlank c = false := by simpa using hs
    obtain ⟨front, back, rfl⟩ := List.append_of_mem hc
    rw [List.append_assoc, List.cons_append, trim_append_cons hblank, trim_append_cons hblank,
      trimEnd_append h]

theorem trim_trimStart (s : Text) : trim (trimStart s) = trim s := by
  rw [trim, trimStart, trimStart, List.dropWhile_idempotent]
  rfl

theorem trim_trimEnd (s : Text) : trim (trimEnd s) = trim s := by
  obtain ⟨blanks, hblanks, hs⟩ := exists_trimEnd_append s
  conv_rhs => rw [hs, trim_append_blanks hblanks]

/-! ### Letter case -/

theorem toLower_eq (c : Char) :
    c.toLower = c ∨ (0x41 ≤ c.toNat ∧ c.toNat ≤ 0x5a ∧ c.toLower.toNat = c.toNat + 0x20) := by
  by_cases h : c.val ≥ 'A'.val ∧ c.val ≤ 'Z'.val
  · right
    have h1 : 0x41 ≤ c.toNat := h.1
    have h2 : c.toNat ≤ 0x5a := h.2
    refine ⟨h1, h2, ?_⟩
    have hv : c.toLower.val = c.val + ('a'.val - 'A'.val) := by rw [Char.toLower, dif_pos h]
    have hn : c.toLower.toNat = (c.toNat + 0x20) % 2 ^ 32 := by
      show c.toLower.val.toNat = _
      rw [hv, UInt32.toNat_add]
      rfl
    omega
  · left
    rw [Char.toLower, dif_neg h]

/-- Lower case is stable. -/
@[simp] theorem lower_lower (s : Text) : lower (lower s) = lower s := by
  simp [lower]

theorem utf8Size_toLower (c : Char) : c.toLower.utf8Size = c.utf8Size := by
  rcases toLower_eq c with h | ⟨h1, h2, h3⟩
  · rw [h]
  · have hsize (d : Char) (hd : d.toNat ≤ 0x7f) : d.utf8Size = 1 :=
      Char.utf8Size_eq_one_iff.mpr hd
    rw [hsize c (by omega), hsize c.toLower (by omega)]

/-- An ASCII text has as many bytes as characters. -/
theorem byteLength_of_lt {s : Text} (h : ∀ c ∈ s, c.toNat < 0x80) : byteLength s = s.length := by
  induction s with
  | nil => rfl
  | cons c rest ih =>
    obtain ⟨hc, hrest⟩ := List.forall_mem_cons.mp h
    have hsize : c.utf8Size = 1 := Char.utf8Size_eq_one_iff.mpr (Nat.lt_succ_iff.mp hc)
    rw [byteLength_cons, hsize, ih hrest, List.length_cons, Nat.add_comm]

/-- Lower case keeps the number of bytes. -/
@[simp] theorem byteLength_lower (s : Text) : byteLength (lower s) = byteLength s := by
  induction s with
  | nil => rfl
  | cons c rest ih =>
    show c.toLower.utf8Size + byteLength (lower rest) = _
    rw [utf8Size_toLower, ih]
    rfl

end ProxyAuth.Text
