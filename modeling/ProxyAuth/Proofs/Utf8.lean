import Mathlib.Tactic
import ProxyAuth.Proofs.Text
import ProxyAuth.Utf8

/-!
# Texts and their bytes

The bytes of one text occur in those of another only where the text does, at least for texts that
start with an ASCII character: no byte of a longer form looks like one.  Nothing is decoded but the
bytes of a text, so what is well formed is what can be encoded.

* `infix_of_encode`: a text inside bytes;
* `decode?_eq_some_iff`: which bytes are decoded, and as what.
-/

namespace ProxyAuth.Utf8

theorem decodeFrom_encode_append (s : Text) (rest : Bytes) :
    decodeFrom none (encode s ++ rest) = (decodeFrom none rest).map (s ++ ·) := by
  induction s with
  | nil => simp
  | cons c s ih =>
    rw [encode_cons, List.append_assoc, decodeFrom_encodeChar, ih, Option.map_map]
    rfl

/-- The bytes of a text are at the front of those of another only if the text is. -/
theorem prefix_of_encode {s t : Text} (h : encode s <+: encode t) : s <+: t := by
  obtain ⟨rest, hrest⟩ := h
  have hdecode := decode?_encode t
  rw [← hrest, decode?, decodeFrom_encode_append, Option.map_eq_some_iff] at hdecode
  obtain ⟨more, -, rfl⟩ := hdecode
  exact List.prefix_append s more

theorem le_toNat_byte {mark value : Nat} (h : mark + value < 256) (hmark : 0x80 ≤ mark) :
    0x80 ≤ (byte mark value).toNat := by
  rw [toNat_byte h]
  omega

/-- No byte of a longer form looks like an ASCII character. -/
theorem le_of_mem_encodeChar {c : Char} (hc : 0x80 ≤ c.toNat) {b : UInt8}
    (hb : b ∈ encodeChar c) : 0x80 ≤ b.toNat := by
  have hlt := toNat_lt c
  unfold encodeChar at hb
  simp only at hb
  rw [if_neg (by omega)] at hb
  split_ifs at hb <;> simp only [List.mem_cons, List.not_mem_nil, or_false] at hb
  · rcases hb with rfl | rfl <;> exact le_toNat_byte (by omega) (by decide)
  · rcases hb with rfl | rfl | rfl <;> exact le_toNat_byte (by omega) (by decide)
  · rcases hb with rfl | rfl | rfl | rfl <;> exact le_toNat_byte (by omega) (by decide)

theorem encodeChar_of_lt {c : Char} (hc : c.toNat < 0x80) : encodeChar c = [byte 0 c.toNat] := by
  simp [encodeChar, hc]

theorem length_encodeChar (c : Char) : (encodeChar c).length = c.utf8Size := by
  unfold encodeChar
  dsimp only
  symm
  split_ifs with hone htwo hthree
  · exact Char.utf8Size_eq_one_iff.mpr (show c.toNat ≤ 0x7f by omega)
  · exact Char.utf8Size_eq_two_iff.mpr
      ⟨show 0x7f < c.toNat by omega, show c.toNat ≤ 0x7ff by omega⟩
  · exact Char.utf8Size_eq_three_iff.mpr
      ⟨show 0x7ff < c.toNat by omega, show c.toNat ≤ 0xffff by omega⟩
  · exact Char.utf8Size_eq_four_iff.mpr (show 0xffff < c.toNat by omega)

/-- A text has as many bytes as limits count. -/
theorem length_encode (s : Text) : (encode s).length = Text.byteLength s := by
  induction s with
  | nil => rfl
  | cons c s ih =>
    rw [encode_cons, List.length_append, length_encodeChar, ih, Text.byteLength_cons]

theorem length_encode_of_lt {s : Text} (h : ∀ c ∈ s, c.toNat < 0x80) :
    (encode s).length = s.length :=
  (length_encode s).trans (Text.byteLength_of_lt h)

/-- Bytes that are not in front of a list occur in what follows it, if their first one is nowhere
in it. -/
theorem infix_of_infix_append {α : Type} {x : α} {s front back : List α} (hx : x ∉ front)
    (h : x :: s <:+: front ++ back) : x :: s <:+: back := by
  induction front with
  | nil => exact h
  | cons y front ih =>
    rw [List.mem_cons, not_or] at hx
    rcases List.infix_cons_iff.mp h with h | h
    · exact absurd (List.cons_prefix_cons.mp h).1 hx.1
    · exact ih hx.2 h

/-- The bytes of a text that starts with an ASCII character are inside those of another only if the
text is. -/
theorem infix_of_encode {c : Char} {s t : Text} (hc : c.toNat < 0x80)
    (h : encode (c :: s) <:+: encode t) : c :: s <:+: t := by
  induction t with
  | nil =>
    rw [encode_cons, encodeChar_of_lt hc, encode_nil] at h
    cases List.eq_nil_of_infix_nil h
  | cons d t ih =>
    rw [List.infix_cons_iff]
    by_cases hd : d.toNat < 0x80
    · -- The first character is one byte, so the bytes start at it or behind it.
      have hbytes : encode (d :: t) = byte 0 d.toNat :: encode t := by
        rw [encode_cons, encodeChar_of_lt hd, List.singleton_append]
      rw [hbytes, List.infix_cons_iff, ← hbytes] at h
      exact h.imp prefix_of_encode ih
    · refine .inr (ih ?_)
      rw [encode_cons c, encodeChar_of_lt hc, List.singleton_append] at h ⊢
      refine infix_of_infix_append (fun hmem => ?_) h
      have hle := le_of_mem_encodeChar (by omega) hmem
      rw [toNat_byte (by omega)] at hle
      omega

/-! ### What is decoded -/

/-- The last `k` bytes of a character, each with six bits of its code point. -/
def furtherBytes (n : Nat) : Nat → Bytes
  | 0 => []
  | k + 1 => byte 0x80 (n / 0x40 ^ k % 0x40) :: furtherBytes n k

theorem eq_byte {b : UInt8} {mark value : Nat} (h : b.toNat = mark + value) :
    b = byte mark value := by
  have hlt := b.toNat_lt
  rw [← UInt8.toNat_inj, toNat_byte (by omega), h]

theorem encodeChar_ofNat {b : UInt8} (h : b.toNat < 0x80) :
    encodeChar (.ofNat b.toNat) = [b] := by
  have hchar : (Char.ofNat b.toNat).toNat = b.toNat := by
    rw [Char.toNat_ofNat, if_pos (.inl (by omega))]
  rw [encodeChar_of_lt (by omega), hchar, ← eq_byte (Nat.zero_add _).symm]

/-- What has been read of a character, and may be followed by its further bytes. -/
structure Pending.IsOf (p : Pending) (c : Char) : Prop where
  value : p.value = c.toNat / 0x40 ^ p.missing
  least : p.least ≤ c.toNat

theorem missing_pos_of_lead? {b : UInt8} {p : Pending} (h : lead? b = some p) : 0 < p.missing := by
  unfold lead? at h
  dsimp only at h
  split_ifs at h
  all_goals
    obtain rfl := Option.some.inj h
    exact Nat.succ_pos _

/-- A first byte is followed by the further bytes that it announces, where there is no shorter
form. -/
theorem Pending.IsOf.encodeChar_eq {b : UInt8} {p : Pending} {c : Char} (hp : p.IsOf c)
    (h : lead? b = some p) : encodeChar c = b :: furtherBytes c.toNat p.missing := by
  obtain ⟨hvalue, hleast⟩ := hp
  unfold lead? at h
  dsimp only at h
  unfold encodeChar
  dsimp only
  split_ifs at h
  all_goals
    obtain rfl := Option.some.inj h
    simp only [Nat.reducePow] at hvalue hleast
  · have hb : b = byte 0xc0 (c.toNat / 0x40) := eq_byte (by omega)
    rw [if_neg (by omega), if_pos (by omega), hb]
    simp [furtherBytes]
  · have hb : b = byte 0xe0 (c.toNat / 0x1000) := eq_byte (by omega)
    rw [if_neg (by omega), if_neg (by omega), if_pos (by omega), hb]
    simp [furtherBytes]
  · have hb : b = byte 0xf0 (c.toNat / 0x40000) := eq_byte (by omega)
    rw [if_neg (by omega), if_neg (by omega), if_neg (by omega), hb]
    simp [furtherBytes]

theorem Pending.push?_eq_some {p q : Pending} {b : UInt8} (h : p.push? b = some q) :
    ∃ v < 0x40, b = byte 0x80 v ∧ q = ⟨p.value * 0x40 + v, p.missing - 1, p.least⟩ := by
  unfold push? at h
  dsimp only at h
  split_ifs at h with hb
  obtain rfl := Option.some.inj h
  exact ⟨b.toNat - 0x80, by omega, eq_byte (by omega), rfl⟩

/-- One further byte is the first of those that are missing. -/
theorem Pending.IsOf.push {p : Pending} {c : Char} {v : Nat} (hmissing : 0 < p.missing)
    (hv : v < 0x40) (h : IsOf ⟨p.value * 0x40 + v, p.missing - 1, p.least⟩ c) :
    p.IsOf c ∧ furtherBytes c.toNat p.missing =
      byte 0x80 v :: furtherBytes c.toNat (p.missing - 1) := by
  obtain ⟨hvalue, hleast⟩ := h
  obtain ⟨k, hk⟩ : ∃ k, p.missing = k + 1 := ⟨p.missing - 1, by omega⟩
  rw [hk, Nat.add_sub_cancel] at hvalue ⊢
  dsimp only at hvalue
  refine ⟨⟨?_, hleast⟩, ?_⟩
  · rw [hk, pow_succ, ← Nat.div_div_eq_div_mul, ← hvalue]
    omega
  · rw [furtherBytes, ← hvalue]
    congr 2
    omega

theorem isOf_of_char? {p : Pending} {c : Char} (hmissing : p.missing = 0) (h : p.char? = some c) :
    p.IsOf c := by
  unfold Pending.char? at h
  split_ifs at h with hvalid
  obtain rfl := Option.some.inj h
  have hchar : (Char.ofNat p.value).toNat = p.value := by
    rw [Char.toNat_ofNat, if_pos hvalid.2]
  exact ⟨by rw [hmissing, pow_zero, Nat.div_one, hchar], by rw [hchar]; exact hvalid.1⟩

/-- What is decoded was encoded, between two characters and in the middle of one. -/
theorem encode_of_decodeFrom (bytes : Bytes) :
    (∀ s, decodeFrom none bytes = some s → bytes = encode s) ∧
      ∀ p s, 0 < p.missing → decodeFrom (some p) bytes = some s →
        ∃ c rest, s = c :: rest ∧ p.IsOf c ∧
          bytes = furtherBytes c.toNat p.missing ++ encode rest := by
  induction bytes with
  | nil =>
    refine ⟨fun s h => ?_, fun p s _ h => by cases h⟩
    obtain rfl := Option.some.inj h
    rfl
  | cons b bytes ih =>
    obtain ⟨ihnone, ihsome⟩ := ih
    constructor
    · intro s h
      rw [decodeFrom] at h
      split_ifs at h with hb
      · obtain ⟨rest, hrest, rfl⟩ := Option.map_eq_some_iff.mp h
        rw [encode_cons, encodeChar_ofNat hb, ← ihnone rest hrest]
        rfl
      · split at h
        · cases h
        · rename_i p hp
          obtain ⟨c, rest, rfl, hof, hbytes⟩ := ihsome p s (missing_pos_of_lead? hp) h
          rw [encode_cons, hof.encodeChar_eq hp, hbytes]
          rfl
    · intro p s hmissing h
      rw [decodeFrom] at h
      split at h
      · cases h
      · rename_i q hq
        obtain ⟨v, hv, rfl, rfl⟩ := Pending.push?_eq_some hq
        dsimp only at h
        split_ifs at h with hlast
        · -- The character is complete, and its last byte holds its last bits.
          split at h
          · cases h
          · rename_i c hc
            obtain ⟨rest, hrest, rfl⟩ := Option.map_eq_some_iff.mp h
            obtain ⟨hof, hfurther⟩ := (isOf_of_char? hlast hc).push hmissing hv
            refine ⟨c, rest, rfl, hof, ?_⟩
            rw [hfurther, hlast, ihnone rest hrest]
            rfl
        · obtain ⟨c, rest, rfl, hof, hbytes⟩ := ihsome _ s (Nat.pos_of_ne_zero hlast) h
          obtain ⟨hof, hfurther⟩ := hof.push hmissing hv
          exact ⟨c, rest, rfl, hof, by rw [hfurther, hbytes]; rfl⟩

/-- **Only what was encoded is decoded.** -/
theorem decode?_eq_some_iff {bytes : Bytes} {s : Text} :
    decode? bytes = some s ↔ bytes = encode s := by
  constructor
  · exact (encode_of_decodeFrom bytes).1 s
  · rintro rfl
    exact decode?_encode s

end ProxyAuth.Utf8
