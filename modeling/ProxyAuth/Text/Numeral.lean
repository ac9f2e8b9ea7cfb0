import ProxyAuth.Text

/-!
# Numerals

Reading and writing numbers in base ten and sixteen.  A numeral has at least one digit; leading
zeros are allowed.  `signedValue?` admits a plus or minus sign, `unsignedValue?` a plus sign.  Main
statements: what `decimal` and `hexadecimal` write is read back.
-/

namespace ProxyAuth.Text

/-- The value of a hexadecimal digit, in either letter case. -/
def hexValue? (c : Char) : Option Nat :=
  if '0' ≤ c ∧ c ≤ '9' then some (c.toNat - 0x30)
  else if 'a' ≤ c ∧ c ≤ 'f' then some (c.toNat - 0x61 + 10)
  else if 'A' ≤ c ∧ c ≤ 'F' then some (c.toNat - 0x41 + 10)
  else none

/-- The value of a digit in a base up to sixteen. -/
def digitValue? (base : Nat) (c : Char) : Option Nat := (hexValue? c).filter (· < base)

/-- The value of a list of digits, most significant first. -/
def ofDigits (base : Nat) (digits : List Nat) : Nat :=
  digits.foldl (fun n d => n * base + d) 0

/-- The value of a numeral without sign. -/
def value? (base : Nat) (s : Text) : Option Nat :=
  if s = [] then none else (s.mapM (digitValue? base)).map (ofDigits base)

/-- The value of a numeral that may start with a plus sign. -/
def unsignedValue? (base : Nat) : Text → Option Nat
  | '+' :: rest => value? base rest
  | s => value? base s

/-- The value of a numeral that may start with a plus or minus sign. -/
def signedValue? (base : Nat) : Text → Option Int
  | '-' :: rest => (value? base rest).map fun n => -(n : Int)
  | s => (unsignedValue? base s).map fun n => (n : Int)

/-- A number at most `limit` in base ten. -/
def boundedValue? (limit : Nat) (s : Text) : Option Nat :=
  (unsignedValue? 10 s).filter (· ≤ limit)

/-- The decimal numeral of a number, without leading zeros. -/
def decimal (n : Nat) : Text := Nat.toDigits 10 n

/-- The hexadecimal numeral of a number in lower case, without leading zeros. -/
def hexadecimal (n : Nat) : Text := Nat.toDigits 16 n

/-- At least `width` hexadecimal digits, filled up with zeros on the left. -/
def paddedHexadecimal (width n : Nat) : Text := (hexadecimal n).leftpad width '0'

/-- The decimal numeral of an integer. -/
def integer (i : Int) : Text :=
  if i < 0 then '-' :: decimal i.natAbs else decimal i.natAbs

/-! ### Reading back -/

theorem hexValue?_digitChar : ∀ d < 16, hexValue? (Nat.digitChar d) = some d := by
  decide

theorem digitValue?_digitChar {b d : Nat} (hb : b ≤ 16) (hd : d < b) :
    digitValue? b (Nat.digitChar d) = some d := by
  rw [digitValue?, hexValue?_digitChar d (by omega)]
  simp [hd]

/-- One more digit shifts the value by one place. -/
theorem ofDigits_append_singleton (b : Nat) (ds : List Nat) (d : Nat) :
    ofDigits b (ds ++ [d]) = ofDigits b ds * b + d := by
  simp [ofDigits]

theorem mapM_digitValue?_toDigits {b : Nat} (h1 : 1 < b) (hb : b ≤ 16) (n : Nat) :
    ∃ ds, (Nat.toDigits b n).mapM (digitValue? b) = some ds ∧ ofDigits b ds = n := by
  induction n using Nat.strongRecOn with
  | ind n ih =>
    rw [Nat.toDigits_eq_if h1]
    split
    · rename_i hn
      exact ⟨[n], by simp [digitValue?_digitChar hb hn], by simp [ofDigits]⟩
    · rename_i hn
      obtain ⟨ds, hds, hv⟩ := ih (n / b) (Nat.div_lt_self (by omega) h1)
      refine ⟨ds ++ [n % b], ?_, ?_⟩
      · have hd := digitValue?_digitChar hb (Nat.mod_lt n (by omega))
        simp [List.mapM_append, hds, hd]
      · rw [ofDigits_append_singleton, hv, Nat.div_add_mod']

/-- Every number is read back from its digits. -/
theorem value?_toDigits {b : Nat} (h1 : 1 < b) (hb : b ≤ 16) (n : Nat) :
    value? b (Nat.toDigits b n) = some n := by
  obtain ⟨ds, hds, hv⟩ := mapM_digitValue?_toDigits h1 hb n
  rw [value?, if_neg Nat.toDigits_ne_nil, hds, Option.map_some, hv]

@[simp] theorem value?_decimal (n : Nat) : value? 10 (decimal n) = some n :=
  value?_toDigits (by decide) (by decide) n

@[simp] theorem value?_hexadecimal (n : Nat) : value? 16 (hexadecimal n) = some n :=
  value?_toDigits (by decide) (by decide) n

end ProxyAuth.Text
