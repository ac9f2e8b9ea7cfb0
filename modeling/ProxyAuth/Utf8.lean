import ProxyAuth.Text

/-!
# UTF-8

`encode` writes each character in one to four bytes; `decode?` reads the bytes one after the other
and accepts exactly what `encode` writes, so overlong forms, surrogates and values above U+10FFFF
are refused.  Main statement: `decode?_encode`.
-/

namespace ProxyAuth.Utf8

/-- A byte with the given leading bits and value. -/
def byte (mark value : Nat) : UInt8 := .ofNat (mark + value)

/-- The bytes of one character. -/
def encodeChar (c : Char) : Bytes :=
  let n := c.toNat
  if n < 0x80 then [byte 0 n]
  else if n < 0x800 then [byte 0xc0 (n / 0x40), byte 0x80 (n % 0x40)]
  else if n < 0x10000 then
    [byte 0xe0 (n / 0x1000), byte 0x80 (n / 0x40 % 0x40), byte 0x80 (n % 0x40)]
  else
    [byte 0xf0 (n / 0x40000), byte 0x80 (n / 0x1000 % 0x40), byte 0x80 (n / 0x40 % 0x40),
      byte 0x80 (n % 0x40)]

/-- The bytes of a text. -/
def encode (s : Text) : Bytes := s.flatMap encodeChar

/-- A character that has been read in part. -/
structure Pending where
  /-- The bits so far. -/
  value : Nat
  /-- The number of bytes that are missing. -/
  missing : Nat
  /-- The least value that needs as many bytes. -/
  least : Nat
  deriving DecidableEq

/-- The first byte of a character of several bytes. -/
def lead? (b : UInt8) : Option Pending :=
  let n := b.toNat
  if n < 0xc0 then none
  else if n < 0xe0 then some ⟨n - 0xc0, 1, 0x80⟩
  else if n < 0xf0 then some ⟨n - 0xe0, 2, 0x800⟩
  else if n < 0xf8 then some ⟨n - 0xf0, 3, 0x10000⟩
  else none

/-- A further byte of a character. -/
def Pending.push? (p : Pending) (b : UInt8) : Option Pending :=
  let n := b.toNat
  if 0x80 ≤ n ∧ n < 0xc0 then some ⟨p.value * 0x40 + (n - 0x80), p.missing - 1, p.least⟩
  else none

/-- The character, if its bytes are in the shortest form of a scalar value. -/
def Pending.char? (p : Pending) : Option Char :=
  if p.least ≤ p.value ∧ p.value.isValidChar then some (.ofNat p.value) else none

/-- Decode bytes, in the middle of a character or between two. -/
def decodeFrom : Option Pending → Bytes → Option Text
  | none, [] => some []
  | some _, [] => none
  | none, b :: rest =>
      if b.toNat < 0x80 then (decodeFrom none rest).map (Char.ofNat b.toNat :: ·)
      else match lead? b with
        | none => none
        | some p => decodeFrom (some p) rest
  | some p, b :: rest =>
      match p.push? b with
      | none => none
      | some p =>
          if p.missing = 0 then
            match p.char? with
            | none => none
            | some c => (decodeFrom none rest).map (c :: ·)
          else decodeFrom (some p) rest

/-- The text that the bytes spell, if they are well formed. -/
def decode? (bytes : Bytes) : Option Text := decodeFrom none bytes

@[simp] theorem encode_nil : encode [] = [] := rfl

@[simp] theorem encode_cons (c : Char) (s : Text) : encode (c :: s) = encodeChar c ++ encode s :=
  rfl

@[simp] theorem encode_append (s t : Text) : encode (s ++ t) = encode s ++ encode t :=
  List.flatMap_append

@[simp] theorem decode?_nil : decode? [] = some [] := rfl

/-! ### Reading back -/

theorem toNat_byte {m v : Nat} (h : m + v < 256) : (byte m v).toNat = m + v := by
  rw [byte, UInt8.toNat_ofNat']
  omega

/-- A further byte adds its six bits. -/
theorem push?_byte (p : Pending) {v : Nat} (h : v < 0x40) :
    p.push? (byte 0x80 v) = some ⟨p.value * 0x40 + v, p.missing - 1, p.least⟩ := by
  have hb := toNat_byte (m := 0x80) (v := v) (by omega)
  simp only [Pending.push?, hb]
  rw [if_pos (by omega), Nat.add_sub_cancel_left]

/-- The last byte of a character completes it. -/
theorem decodeFrom_last (c : Char) {p : Pending} {v : Nat} (rest : Bytes) (hv : v < 0x40)
    (hm : p.missing = 1) (hl : p.least ≤ c.toNat) (hc : p.value * 0x40 + v = c.toNat) :
    decodeFrom (some p) (byte 0x80 v :: rest) = (decodeFrom none rest).map (c :: ·) := by
  have hvalid : c.toNat.isValidChar := c.valid
  rw [decodeFrom, push?_byte p hv]
  simp [Pending.char?, hm, hc, hl, hvalid]

/-- A byte before the last one adds its bits. -/
theorem decodeFrom_push {p : Pending} {v : Nat} (rest : Bytes) (hv : v < 0x40)
    (hm : 1 < p.missing) :
    decodeFrom (some p) (byte 0x80 v :: rest) =
      decodeFrom (some ⟨p.value * 0x40 + v, p.missing - 1, p.least⟩) rest := by
  rw [decodeFrom, push?_byte p hv]
  simp only
  rw [if_neg (by omega)]

/-- A first byte opens a character. -/
theorem decodeFrom_lead {b : UInt8} {p : Pending} (rest : Bytes) (hb : 0x80 ≤ b.toNat)
    (hp : lead? b = some p) : decodeFrom none (b :: rest) = decodeFrom (some p) rest := by
  rw [decodeFrom, if_neg (by omega), hp]

/-- Code points end at U+10FFFF. -/
theorem toNat_lt (c : Char) : c.toNat < 0x110000 := by
  have := c.valid
  simp only [UInt32.isValidChar, Nat.isValidChar] at this
  show c.val.toNat < _
  omega

theorem decodeFrom_encodeChar (c : Char) (rest : Bytes) :
    decodeFrom none (encodeChar c ++ rest) = (decodeFrom none rest).map (c :: ·) := by
  have hc := toNat_lt c
  unfold encodeChar
  simp only
  split
  · have hb := toNat_byte (m := 0) (v := c.toNat) (by omega)
    rw [List.singleton_append, decodeFrom, hb, Nat.zero_add, if_pos (by assumption)]
    simp
  split
  · have hb := toNat_byte (m := 0xc0) (v := c.toNat / 0x40) (by omega)
    have hp : lead? (byte 0xc0 (c.toNat / 0x40)) = some ⟨c.toNat / 0x40, 1, 0x80⟩ := by
      simp only [lead?, hb]
      rw [if_neg (by omega), if_pos (by omega), Nat.add_sub_cancel_left]
    simp only [List.cons_append, List.nil_append]
    rw [decodeFrom_lead _ (by omega) hp,
      decodeFrom_last c rest (by omega) rfl (by simp only; omega) (by simp only; omega)]
  split
  · have hb := toNat_byte (m := 0xe0) (v := c.toNat / 0x1000) (by omega)
    have hp : lead? (byte 0xe0 (c.toNat / 0x1000)) = some ⟨c.toNat / 0x1000, 2, 0x800⟩ := by
      simp only [lead?, hb]
      rw [if_neg (by omega), if_neg (by omega), if_pos (by omega), Nat.add_sub_cancel_left]
    simp only [List.cons_append, List.nil_append]
    rw [decodeFrom_lead _ (by omega) hp, decodeFrom_push _ (by omega) (by simp),
      decodeFrom_last c rest (by omega) rfl (by simp only; omega) (by simp only; omega)]
  · have hb := toNat_byte (m := 0xf0) (v := c.toNat / 0x40000) (by omega)
    have hp : lead? (byte 0xf0 (c.toNat / 0x40000)) = some ⟨c.toNat / 0x40000, 3, 0x10000⟩ := by
      simp only [lead?, hb]
      rw [if_neg (by omega), if_neg (by omega), if_neg (by omega), if_pos (by omega),
        Nat.add_sub_cancel_left]
    simp only [List.cons_append, List.nil_append]
    rw [decodeFrom_lead _ (by omega) hp, decodeFrom_push _ (by omega) (by simp),
      decodeFrom_push _ (by omega) (by simp),
      decodeFrom_last c rest (by omega) rfl (by simp only; omega) (by simp only; omega)]

/-- Every text is read back from its bytes. -/
@[simp] theorem decode?_encode (s : Text) : decode? (encode s) = some s := by
  induction s with
  | nil => rfl
  | cons c s ih =>
    show decodeFrom none (encodeChar c ++ encode s) = some (c :: s)
    rw [decodeFrom_encodeChar]
    show (decode? (encode s)).map (c :: ·) = _
    rw [ih]
    rfl

end ProxyAuth.Utf8
