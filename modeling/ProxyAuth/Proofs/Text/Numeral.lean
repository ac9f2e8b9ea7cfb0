import Mathlib.Tactic
import ProxyAuth.Proofs.Text

/-!
# The grammar of numerals

A numeral is a digit, or a numeral with one more digit behind it, so there is no limit to the number
of leading zeros.  The readers of numerals accept exactly this grammar and give the number that it
says.

* `IsDigit`, `IsNumeral`, `IsUnsigned`, `IsSigned`: how numbers are written;
* `value?_eq_some_iff`, `unsignedValue?_eq_some_iff`, `signedValue?_eq_some_iff`,
  `boundedValue?_eq_some_iff`: what is read, and as which number.
-/

namespace ProxyAuth.Text

/-- A digit and its value; the letters among the digits may be in either case. -/
inductive IsDigit (base : Nat) : Char → Nat → Prop
  | lower {d : Nat} (h : d < base) : IsDigit base (Nat.digitChar d) d
  | upper {d : Nat} (h : d < base) : IsDigit base (Nat.digitChar d).toUpper d

/-- Digits and the number that they write, the most significant one first. -/
inductive IsNumeral (base : Nat) : Text → Nat → Prop
  | digit {c : Char} {d : Nat} (hc : IsDigit base c d) : IsNumeral base [c] d
  | snoc {s : Text} {n : Nat} {c : Char} {d : Nat} (hs : IsNumeral base s n)
      (hc : IsDigit base c d) : IsNumeral base (s ++ [c]) (n * base + d)

/-- A numeral that may have a plus sign in front. -/
inductive IsUnsigned (base : Nat) : Text → Nat → Prop
  | bare {s : Text} {n : Nat} (h : IsNumeral base s n) : IsUnsigned base s n
  | plus {s : Text} {n : Nat} (h : IsNumeral base s n) : IsUnsigned base ('+' :: s) n

/-- A numeral that may have a plus or minus sign in front. -/
inductive IsSigned (base : Nat) : Text → Int → Prop
  | unsigned {s : Text} {n : Nat} (h : IsUnsigned base s n) : IsSigned base s n
  | minus {s : Text} {n : Nat} (h : IsNumeral base s n) : IsSigned base ('-' :: s) (-(n : Int))

variable {base : Nat} {s : Text} {c : Char} {d n : Nat}

/-! ### Digits -/

theorem hexValue?_toUpper : ∀ d < 16, hexValue? (Nat.digitChar d).toUpper = some d := by
  decide

theorem toNat_digitChar :
    ∀ d < 16, (Nat.digitChar d).toNat = if d < 10 then 48 + d else 87 + d := by
  decide

theorem toNat_toUpper_digitChar :
    ∀ d < 16, (Nat.digitChar d).toUpper.toNat = if d < 10 then 48 + d else 55 + d := by
  decide

/-- A character with a value is the digit of this value in lower or upper case. -/
theorem eq_digitChar_of_hexValue? (h : hexValue? c = some d) :
    d < 16 ∧ (c = Nat.digitChar d ∨ c = (Nat.digitChar d).toUpper) := by
  unfold hexValue? at h
  split_ifs at h with hdigit hlower hupper
  · have h1 : 48 ≤ c.toNat := hdigit.1
    have h2 : c.toNat ≤ 57 := hdigit.2
    have hd : c.toNat - 0x30 = d := Option.some.inj h
    refine ⟨by omega, .inl (Char.toNat_inj.mp ?_)⟩
    rw [toNat_digitChar d (by omega), if_pos (by omega)]
    omega
  · have h1 : 97 ≤ c.toNat := hlower.1
    have h2 : c.toNat ≤ 102 := hlower.2
    have hd : c.toNat - 0x61 + 10 = d := Option.some.inj h
    refine ⟨by omega, .inl (Char.toNat_inj.mp ?_)⟩
    rw [toNat_digitChar d (by omega), if_neg (by omega)]
    omega
  · have h1 : 65 ≤ c.toNat := hupper.1
    have h2 : c.toNat ≤ 70 := hupper.2
    have hd : c.toNat - 0x41 + 10 = d := Option.some.inj h
    refine ⟨by omega, .inr (Char.toNat_inj.mp ?_)⟩
    rw [toNat_toUpper_digitChar d (by omega), if_neg (by omega)]
    omega

theorem digitValue?_eq_some_iff (hbase : base ≤ 16) :
    digitValue? base c = some d ↔ IsDigit base c d := by
  rw [digitValue?, Option.filter_eq_some_iff, decide_eq_true_eq]
  constructor
  · rintro ⟨h, hd⟩
    rcases (eq_digitChar_of_hexValue? h).2 with rfl | rfl
    · exact .lower hd
    · exact .upper hd
  · rintro (hd | hd)
    · exact ⟨hexValue?_digitChar d (by omega), hd⟩
    · exact ⟨hexValue?_toUpper d (by omega), hd⟩

/-! ### Numerals without a sign -/

theorem value?_singleton (base : Nat) (c : Char) : value? base [c] = digitValue? base c := by
  rw [value?, if_neg (List.cons_ne_nil _ _), List.mapM_cons, List.mapM_nil]
  cases digitValue? base c <;> simp [ofDigits]

/-- One more digit behind a numeral shifts its value by one place. -/
theorem value?_concat (base : Nat) (hs : s ≠ []) (c : Char) :
    value? base (s ++ [c]) =
      (value? base s).bind fun n => (digitValue? base c).map fun d => n * base + d := by
  rw [value?, value?, if_neg hs, if_neg (by simp), List.mapM_append, List.mapM_cons, List.mapM_nil]
  cases s.mapM (digitValue? base) with
  | none => rfl
  | some ds => cases digitValue? base c <;> simp [ofDigits_append_singleton]

theorem IsNumeral.ne_nil (h : IsNumeral base s n) : s ≠ [] := by
  cases h <;> simp

/-- What is read as a numeral is one. -/
theorem value?_eq_some_iff (hbase : base ≤ 16) : value? base s = some n ↔ IsNumeral base s n := by
  constructor
  · intro h
    induction s using List.reverseRecOn generalizing n with
    | nil => cases h
    | append_singleton s c ih =>
      by_cases hs : s = []
      · subst hs
        rw [List.nil_append, value?_singleton, digitValue?_eq_some_iff hbase] at h
        exact .digit h
      · rw [value?_concat base hs] at h
        obtain ⟨m, hm, h⟩ := Option.bind_eq_some_iff.mp h
        obtain ⟨d, hd, rfl⟩ := Option.map_eq_some_iff.mp h
        exact .snoc (ih hm) ((digitValue?_eq_some_iff hbase).mp hd)
  · intro h
    induction h with
    | digit hc => rw [value?_singleton, digitValue?_eq_some_iff hbase]; exact hc
    | snoc hs hc ih =>
      rw [value?_concat base hs.ne_nil, ih, (digitValue?_eq_some_iff hbase).mpr hc]
      rfl

/-- A numeral writes one number. -/
theorem IsNumeral.inj {m : Nat} (hbase : base ≤ 16) (h : IsNumeral base s n)
    (h' : IsNumeral base s m) : n = m := by
  rw [← value?_eq_some_iff hbase] at h h'
  exact Option.some.inj (h.symm.trans h')

theorem isNumeral_hexadecimal (n : Nat) : IsNumeral 16 (hexadecimal n) n :=
  (value?_eq_some_iff (by decide)).mp (value?_hexadecimal n)

/-- A zero in front does not change the number. -/
theorem IsNumeral.cons_zero (hbase : 0 < base) (h : IsNumeral base s n) :
    IsNumeral base ('0' :: s) n := by
  induction h with
  | @digit c d hc =>
    have hzero : IsNumeral base ['0'] 0 := .digit (.lower hbase)
    simpa using hzero.snoc hc
  | snoc hs hc ih => exact ih.snoc hc

theorem IsNumeral.leftpad (hbase : 0 < base) (h : IsNumeral base s n) (width : Nat) :
    IsNumeral base (s.leftpad width '0') n := by
  unfold List.leftpad
  generalize width - s.length = zeros
  induction zeros with
  | zero => exact h
  | succ zeros ih => exact ih.cons_zero hbase

/-- Only digits stand in a numeral. -/
theorem IsNumeral.not_mem (hbase : base ≤ 16) (h : IsNumeral base s n) (hc : hexValue? c = none) :
    c ∉ s := fun hmem => by
  have hvalue := (value?_eq_some_iff hbase).mpr h
  rw [value?_eq_none hmem hc] at hvalue
  cases hvalue

/-! ### Signs -/

theorem unsignedValue?_eq_some_iff (hbase : base ≤ 16) :
    unsignedValue? base s = some n ↔ IsUnsigned base s n := by
  constructor
  · unfold unsignedValue?
    split
    · exact fun h => .plus ((value?_eq_some_iff hbase).mp h)
    · exact fun h => .bare ((value?_eq_some_iff hbase).mp h)
  · rintro (h | h)
    · have hplus : ∀ rest, s ≠ '+' :: rest := by
        rintro rest rfl
        exact h.not_mem hbase (by decide) List.mem_cons_self
      rw [unsignedValue?.eq_2 base s hplus]
      exact (value?_eq_some_iff hbase).mpr h
    · exact (value?_eq_some_iff hbase).mpr h

/-- Besides digits a numeral has at most its sign. -/
theorem IsUnsigned.not_mem (hbase : base ≤ 16) (h : IsUnsigned base s n) (hc : hexValue? c = none)
    (hplus : c ≠ '+') : c ∉ s := by
  cases h with
  | bare h => exact h.not_mem hbase hc
  | plus h => exact List.not_mem_cons_of_ne_of_not_mem hplus (h.not_mem hbase hc)

theorem IsSigned.not_mem {v : Int} (hbase : base ≤ 16) (h : IsSigned base s v)
    (hc : hexValue? c = none) (hplus : c ≠ '+') (hminus : c ≠ '-') : c ∉ s := by
  cases h with
  | unsigned h => exact h.not_mem hbase hc hplus
  | minus h => exact List.not_mem_cons_of_ne_of_not_mem hminus (h.not_mem hbase hc)

theorem signedValue?_minus (base : Nat) (s : Text) :
    signedValue? base ('-' :: s) = (value? base s).map fun n : Nat => -(n : Int) := by
  rw [signedValue?]
  cases value? base s <;> rfl

theorem signedValue?_of_ne (base : Nat) (h : ∀ rest, s ≠ '-' :: rest) :
    signedValue? base s = (unsignedValue? base s).map fun n : Nat => (n : Int) := by
  rw [signedValue?.eq_2 base s h]
  cases unsignedValue? base s <;> rfl

theorem signedValue?_eq_some_iff (hbase : base ≤ 16) {v : Int} :
    signedValue? base s = some v ↔ IsSigned base s v := by
  constructor
  · intro h
    by_cases hs : ∃ rest, s = '-' :: rest
    · obtain ⟨rest, rfl⟩ := hs
      rw [signedValue?_minus] at h
      obtain ⟨n, hn, rfl⟩ := Option.map_eq_some_iff.mp h
      exact .minus ((value?_eq_some_iff hbase).mp hn)
    · rw [signedValue?_of_ne base (not_exists.mp hs)] at h
      obtain ⟨n, hn, rfl⟩ := Option.map_eq_some_iff.mp h
      exact .unsigned ((unsignedValue?_eq_some_iff hbase).mp hn)
  · rintro (h | h)
    · have hminus : ∀ rest, s ≠ '-' :: rest := by
        rintro rest rfl
        exact h.not_mem hbase (by decide) (by decide) List.mem_cons_self
      rw [signedValue?_of_ne base hminus, (unsignedValue?_eq_some_iff hbase).mpr h]
      rfl
    · rw [signedValue?_minus, (value?_eq_some_iff hbase).mpr h]
      rfl

theorem boundedValue?_eq_some_iff {limit : Nat} :
    boundedValue? limit s = some n ↔ IsUnsigned 10 s n ∧ n ≤ limit := by
  rw [boundedValue?, Option.filter_eq_some_iff, unsignedValue?_eq_some_iff (by decide),
    decide_eq_true_eq]

/-! ### Decimal numerals without leading zeros -/

/-- Without a leading zero there is only one way to write a number in base ten. -/
theorem IsNumeral.eq_decimal (h : IsNumeral 10 s n) (hzero : s.head? = some '0' → s.length ≤ 1) :
    s = decimal n := by
  have hdigit {c : Char} {d : Nat} (hc : IsDigit 10 c d) : d < 10 ∧ c = Nat.digitChar d := by
    have hupper : ∀ d < 10, (Nat.digitChar d).toUpper = Nat.digitChar d := by decide
    cases hc with
    | lower hd => exact ⟨hd, rfl⟩
    | upper hd => exact ⟨hd, hupper _ hd⟩
  induction h with
  | digit hc =>
    obtain ⟨hd, rfl⟩ := hdigit hc
    exact (Nat.toDigits_of_lt_base hd).symm
  | @snoc s n c d hs hc ih =>
    obtain ⟨hd, rfl⟩ := hdigit hc
    have hhead : s.head? ≠ some '0' := fun h0 => by
      have hlength := hzero (by rw [List.head?_append_of_ne_nil _ hs.ne_nil]; exact h0)
      have := List.length_pos_iff.mpr hs.ne_nil
      simp only [List.length_append, List.length_singleton] at hlength
      omega
    have heq : s = decimal n := ih fun h0 => absurd h0 hhead
    have hn : 0 < n := by
      refine Nat.pos_of_ne_zero fun h0 => hhead ?_
      rw [heq, h0]
      rfl
    rw [heq, decimal, decimal, mul_comm n 10,
      ← Nat.toDigits_append_toDigits (by decide) hn hd, Nat.toDigits_of_lt_base hd]

end ProxyAuth.Text
