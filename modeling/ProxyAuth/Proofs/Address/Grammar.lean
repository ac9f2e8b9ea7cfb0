import Mathlib.Tactic
import ProxyAuth.Address.Parser
import ProxyAuth.Address.Printer
import ProxyAuth.Proofs.Text.Numeral

/-!
# The grammar of addresses

A short address has one written form: four decimal octets between dots.  A long address is eight
groups of up to four hexadecimal digits between colons, where a run of groups may be left out
between two colons and the last two groups may be written as a short address.

* `Spells`: how addresses are written;
* `parseShort?_eq_some_iff`: a short address is read from its printed form only;
* `splitFirst?_joined`: the first `::` is where the run was left out;
* `parse?_eq_some_iff`: what is read, and as which address.
-/

namespace ProxyAuth

open Text

namespace Address

/-! ### Words and their parts -/

@[simp] theorem ofParts_append_singleton (base : Nat) (ps : List Nat) (p : Nat) :
    ofParts base (ps ++ [p]) = ofParts base ps * base + p := by
  simp [ofParts]

/-- A word is made up of its parts, as far as they reach. -/
theorem ofParts_parts (base n word : Nat) : ofParts base (parts base n word) = word % base ^ n := by
  induction n generalizing word with
  | zero => simp [parts, ofParts, Nat.mod_one]
  | succ n ih =>
    rw [parts, ofParts_append_singleton, ih, pow_succ', Nat.mod_mul]
    ring

theorem lt_of_mem_parts {base : Nat} (hb : 0 < base) {n word p : Nat}
    (h : p ∈ parts base n word) : p < base := by
  induction n generalizing word with
  | zero => cases h
  | succ n ih =>
    rcases List.mem_append.mp h with h | h
    · exact ih h
    · rw [List.mem_singleton.mp h]
      exact Nat.mod_lt word hb

theorem ofParts_lt {base : Nat} {ps : List Nat} (h : ∀ p ∈ ps, p < base) :
    ofParts base ps < base ^ ps.length := by
  induction ps using List.reverseRecOn with
  | nil => simp [ofParts]
  | append_singleton ps p ih =>
    have hp := h p (by simp)
    have hps := ih fun q hq => h q (List.mem_append_left _ hq)
    rw [ofParts_append_singleton, List.length_append, List.length_singleton, pow_succ]
    nlinarith

/-- The parts are told from the word. -/
theorem parts_ofParts {base : Nat} {ps : List Nat} (h : ∀ p ∈ ps, p < base) :
    parts base ps.length (ofParts base ps) = ps := by
  induction ps using List.reverseRecOn with
  | nil => rfl
  | append_singleton ps p ih =>
    have hp := h p (by simp)
    have hps := ih fun q hq => h q (List.mem_append_left _ hq)
    rw [ofParts_append_singleton, List.length_append, List.length_singleton, parts,
      Nat.mul_comm, Nat.mul_add_div (by omega), Nat.div_eq_of_lt hp, Nat.add_zero, hps,
      Nat.mul_add_mod, Nat.mod_eq_of_lt hp]

theorem ofNat_octets (bits : BitVec 32) : BitVec.ofNat 32 (ofParts 256 (octets bits)) = bits := by
  rw [octets, ofParts_parts]
  apply BitVec.eq_of_toNat_eq
  have := bits.isLt
  rw [BitVec.toNat_ofNat]
  omega

theorem octets_ofNat {ps : List Nat} (hlength : ps.length = 4) (h : ∀ p ∈ ps, p < 256) :
    octets (BitVec.ofNat 32 (ofParts 256 ps)) = ps := by
  have hlt : ofParts 256 ps < 2 ^ 32 := by
    have hpow := ofParts_lt h
    rwa [hlength] at hpow
  have hparts := parts_ofParts h
  rwa [hlength, ← Nat.mod_eq_of_lt hlt, ← BitVec.toNat_ofNat] at hparts

/-! ### Short addresses -/

theorem octet?_eq_some_iff {s : Text} {n : Nat} : octet? s = some n ↔ n < 256 ∧ s = decimal n := by
  constructor
  · intro h
    rw [octet?] at h
    split_ifs at h with hlong
    obtain ⟨hvalue, hn⟩ := Option.filter_eq_some_iff.mp h
    refine ⟨of_decide_eq_true hn, IsNumeral.eq_decimal
      ((value?_eq_some_iff (by decide)).mp hvalue) fun hzero => ?_⟩
    rw [not_or, not_and, not_lt] at hlong
    by_contra hlength
    exact hlong.2 (not_le.mp hlength) hzero
  · rintro ⟨hn, rfl⟩
    -- No octet has more than three digits or a leading zero.
    have hall : ∀ n < 256, ¬ (3 < (decimal n).length ∨
        (1 < (decimal n).length ∧ (decimal n).head? = some '0')) := by
      decide +kernel
    rw [octet?, if_neg (hall n hn), value?_decimal]
    simp [hn]

theorem splitOn_renderShort (bits : BitVec 32) :
    (renderShort bits).splitOn '.' = (octets bits).map decimal := by
  refine List.splitOn_intercalate '.' ?_ ?_
  · intro l hl
    obtain ⟨n, -, rfl⟩ := List.mem_map.mp hl
    exact not_mem_decimal (by decide) n
  · simp [octets, parts]

theorem mapM_octet?_eq_some_iff {pieces : List Text} {ns : List Nat} :
    pieces.mapM octet? = some ns ↔ pieces = ns.map decimal ∧ ∀ n ∈ ns, n < 256 := by
  rw [mapM_eq_some_iff]
  simp only [octet?_eq_some_iff]
  constructor
  · intro h
    induction h with
    | nil => exact ⟨rfl, List.forall_mem_nil _⟩
    | cons hn _ ih =>
      exact ⟨by rw [List.map_cons, ← ih.1, ← hn.2], List.forall_mem_cons.mpr ⟨hn.1, ih.2⟩⟩
  · rintro ⟨rfl, h⟩
    rw [List.forall₂_map_left_iff, List.forall₂_same]
    exact fun n hn => ⟨h n hn, rfl⟩

/-- A short address is read from its printed form only. -/
theorem parseShort?_eq_some_iff {s : Text} {bits : BitVec 32} :
    parseShort? s = some bits ↔ s = renderShort bits := by
  constructor
  · intro h
    unfold parseShort? at h
    split at h
    · rename_i a b c d hread
      obtain rfl := Option.some.inj h
      obtain ⟨hpieces, hlt⟩ := mapM_octet?_eq_some_iff.mp hread
      rw [renderShort, octets_ofNat rfl hlt, ← hpieces]
      exact (List.intercalate_splitOn '.').symm
    · cases h
  · rintro rfl
    have hread := mapM_octet?_eq_some_iff.mpr
      ⟨splitOn_renderShort bits, fun n hn => lt_of_mem_parts (by decide) hn⟩
    rw [parseShort?, hread]
    exact congrArg some (ofNat_octets bits)

/-- What occurs in a short address is a digit or a dot. -/
theorem eq_dot_of_mem_renderShort {bits : BitVec 32} {c : Char} (h : c ∈ renderShort bits)
    (hc : hexValue? c = none) : c = '.' := by
  rcases mem_intercalate h with h | ⟨l, hl, h⟩
  · exact List.mem_singleton.mp h
  · obtain ⟨n, -, rfl⟩ := List.mem_map.mp hl
    exact absurd h (not_mem_decimal hc n)

theorem dot_mem_renderShort (bits : BitVec 32) : '.' ∈ renderShort bits := by
  by_contra h
  have hlength := congrArg List.length (splitOn_renderShort bits)
  rw [List.splitOn_eq_singleton h, List.length_map, octets, length_parts] at hlength
  cases hlength

/-! ### Groups -/

/-- A group of a long address. -/
structure IsGroup (s : Text) (g : Nat) : Prop where
  isNumeral : IsNumeral 16 s g
  length_le : s.length ≤ 4

/-- Groups, the last two of which may be written as a short address. -/
inductive IsTail : List Text → List Nat → Prop
  | nil : IsTail [] []
  | short (bits : BitVec 32) : IsTail [renderShort bits] (groupsOfShort bits)
  | cons {p : Text} {g : Nat} {ps : List Text} {gs : List Nat} (hp : IsGroup p g)
      (hps : IsTail ps gs) : IsTail (p :: ps) (g :: gs)

/-- What may stand between colons: digits and dots. -/
structure IsPiece (p : Text) : Prop where
  ne_nil : p ≠ []
  eq_dot : ∀ c ∈ p, hexValue? c = none → c = '.'

theorem IsPiece.not_mem {p : Text} (h : IsPiece p) : ':' ∉ p := fun hc =>
  absurd (h.eq_dot ':' hc (by decide)) (by decide)

theorem group?_eq_some_iff {s : Text} {g : Nat} : group? s = some g ↔ IsGroup s g := by
  rw [group?]
  split_ifs with hlength
  · exact iff_of_false nofun fun h => by have := h.length_le; omega
  · rw [value?_eq_some_iff (by decide)]
    exact ⟨fun h => ⟨h, by omega⟩, fun h => h.isNumeral⟩

theorem IsGroup.isPiece {s : Text} {g : Nat} (h : IsGroup s g) : IsPiece s :=
  ⟨h.isNumeral.ne_nil, fun _ hmem hc => absurd hmem (h.isNumeral.not_mem (by decide) hc)⟩

theorem isPiece_renderShort (bits : BitVec 32) : IsPiece (renderShort bits) :=
  ⟨List.ne_nil_of_mem (dot_mem_renderShort bits), fun _ => eq_dot_of_mem_renderShort⟩

/-- A group is no short address. -/
theorem IsGroup.parseShort?_eq_none {s : Text} {g : Nat} (h : IsGroup s g) :
    parseShort? s = none := by
  rw [Option.eq_none_iff_forall_ne_some]
  intro bits hbits
  rw [parseShort?_eq_some_iff.mp hbits] at h
  exact h.isNumeral.not_mem (by decide) (by decide) (dot_mem_renderShort bits)

theorem trailingGroups?_eq_some_iff {ps : List Text} {gs : List Nat} :
    trailingGroups? ps = some gs ↔ IsTail ps gs := by
  constructor
  · intro h
    induction ps generalizing gs with
    | nil =>
      obtain rfl := Option.some.inj h
      exact .nil
    | cons p ps ih =>
      cases ps with
      | nil =>
        unfold trailingGroups? at h
        split at h
        · rename_i bits hbits
          obtain rfl := Option.some.inj h
          rw [parseShort?_eq_some_iff.mp hbits]
          exact .short bits
        · obtain ⟨g, hg, rfl⟩ := Option.map_eq_some_iff.mp h
          exact .cons (group?_eq_some_iff.mp hg) .nil
      | cons q ps =>
        rw [trailingGroups?.eq_3 _ _ (List.cons_ne_nil _ _)] at h
        obtain ⟨g, hg, h⟩ := Option.bind_eq_some_iff.mp h
        obtain ⟨gs, hgs, h⟩ := Option.bind_eq_some_iff.mp h
        obtain rfl := Option.some.inj h
        exact .cons (group?_eq_some_iff.mp hg) (ih hgs)
  · intro h
    induction h with
    | nil => rfl
    | short bits => rw [trailingGroups?, parseShort?_eq_some_iff.mpr rfl]
    | @cons p g ps gs hp hps ih =>
      cases ps with
      | nil =>
        obtain rfl := Option.some.inj ih
        rw [trailingGroups?, hp.parseShort?_eq_none, group?_eq_some_iff.mpr hp]
        rfl
      | cons q ps =>
        rw [trailingGroups?.eq_3 _ _ (List.cons_ne_nil _ _), group?_eq_some_iff.mpr hp, ih]
        rfl

theorem IsTail.isPiece {ps : List Text} {gs : List Nat} (h : IsTail ps gs) :
    ∀ p ∈ ps, IsPiece p := by
  induction h with
  | nil => exact List.forall_mem_nil _
  | short bits => exact List.forall_mem_singleton.mpr (isPiece_renderShort bits)
  | cons hp _ ih => exact List.forall_mem_cons.mpr ⟨hp.isPiece, ih⟩

/-! ### The place of the double colon -/

/-- Texts without colons are passed over. -/
theorem splitFirst?_append_of_not_mem {s : Text} (h : ':' ∉ s) (rest : Text) :
    splitFirst? "::".toList (s ++ rest) =
      (splitFirst? "::".toList rest).map fun (before, after) => (s ++ before, after) := by
  induction s with
  | nil => simp
  | cons c s ih =>
    obtain ⟨hc, hs⟩ : c ≠ ':' ∧ ':' ∉ s := by
      simpa [List.mem_cons, eq_comm] using h
    have hp : ("::".toList).isPrefixOf (c :: (s ++ rest)) = false := by
      simp [List.isPrefixOf, Ne.symm hc]
    rw [List.cons_append, splitFirst?, hp, ih hs]
    simp [Function.comp_def]

/-- A single colon is passed over. -/
theorem splitFirst?_colon {c : Char} (h : c ≠ ':') (rest : Text) :
    splitFirst? "::".toList (':' :: c :: rest) =
      (splitFirst? "::".toList (c :: rest)).map fun (before, after) => (':' :: before, after) := by
  have hp : ("::".toList).isPrefixOf (':' :: c :: rest) = false := by
    simp [List.isPrefixOf, Ne.symm h]
  rw [splitFirst?, hp]
  rfl

theorem joined_eq_nil_iff {ps : List Text} (h : ∀ p ∈ ps, IsPiece p) :
    joined ps = [] ↔ ps = [] := by
  match ps, h with
  | [], _ => simp
  | [p], h => simpa using (h p List.mem_cons_self).ne_nil
  | p :: q :: ps, _ => simp [joined_cons_cons]

/-- Digits, dots and colons make up joined pieces. -/
theorem eq_of_mem_joined {ps : List Text} (h : ∀ p ∈ ps, IsPiece p) {c : Char}
    (hmem : c ∈ joined ps) (hc : hexValue? c = none) : c = '.' ∨ c = ':' := by
  rcases mem_intercalate hmem with hmem | ⟨p, hp, hmem⟩
  · exact .inr (List.mem_singleton.mp hmem)
  · exact .inl ((h p hp).eq_dot c hmem hc)

theorem joined_head {p : Text} (hp : p ≠ []) (ps : List Text) :
    (joined (p :: ps)).head? = p.head? := by
  cases ps with
  | nil => rw [joined_singleton]
  | cons q ps => rw [joined_cons_cons, List.head?_append_of_ne_nil _ hp]

/-- Pieces are told from the text in which they stand between colons. -/
theorem pieces_joined {ps : List Text} (h : ∀ p ∈ ps, IsPiece p) : pieces (joined ps) = ps := by
  rw [pieces]
  split_ifs with hnil
  · exact ((joined_eq_nil_iff h).mp hnil).symm
  · refine List.splitOn_intercalate ':' (fun p hp => (h p hp).not_mem) ?_
    rintro rfl
    exact hnil rfl

theorem joined_pieces (s : Text) : joined (pieces s) = s := by
  rw [pieces]
  split_ifs with hnil
  · exact hnil.symm
  · exact List.intercalate_splitOn ':'

/-- The colons between pieces are passed over. -/
theorem splitFirst?_joined {ps : List Text} (h : ∀ p ∈ ps, IsPiece p) (rest : Text) :
    splitFirst? "::".toList (joined ps ++ rest) =
      (splitFirst? "::".toList rest).map fun (before, after) => (joined ps ++ before, after) := by
  induction ps with
  | nil => simp
  | cons p ps ih =>
    obtain ⟨hp, hps⟩ := List.forall_mem_cons.mp h
    cases ps with
    | nil =>
      rw [joined_singleton]
      exact splitFirst?_append_of_not_mem hp.not_mem rest
    | cons q ps =>
      -- The next piece does not start with a colon, so the one in front of it stands alone.
      obtain ⟨c, tail, htail⟩ := List.exists_cons_of_ne_nil
        (mt (joined_eq_nil_iff hps).mp (List.cons_ne_nil q ps))
      have hc : c ≠ ':' := by
        rintro rfl
        have hq := hps q List.mem_cons_self
        have hhead := joined_head hq.ne_nil ps
        rw [htail] at hhead
        exact hq.not_mem (List.mem_of_head? hhead.symm)
      rw [joined_cons_cons, List.append_assoc, List.cons_append, htail, List.cons_append,
        splitFirst?_append_of_not_mem hp.not_mem, splitFirst?_colon hc, ← List.cons_append, ← htail,
        ih hps]
      simp [Option.map_map, Function.comp_def]

/-! ### Long addresses -/

/-- How the eight groups of a long address are written. -/
inductive SpellsGroups : Text → List Nat → Prop
  /-- All groups are written. -/
  | full {ps : List Text} {gs : List Nat} (hps : IsTail ps gs) (hlength : gs.length = 8) :
      SpellsGroups (joined ps) gs
  /-- At least one group is left out, and those that are left out are zero. -/
  | compressed {ps qs : List Text} {front back : List Nat} (hps : List.Forall₂ IsGroup ps front)
      (hqs : IsTail qs back) (hlength : front.length + back.length ≤ 7) :
      SpellsGroups (joined ps ++ "::".toList ++ joined qs)
        (front ++ List.replicate (8 - front.length - back.length) 0 ++ back)

/-- How an address is written. -/
inductive Spells : Text → Address → Prop
  | short (bits : BitVec 32) : Spells (renderShort bits) (.v4 bits)
  | long {s : Text} {gs : List Nat} (h : SpellsGroups s gs) :
      Spells s (.v6 (.ofNat 128 (ofParts 65536 gs)))

theorem isPiece_of_forall₂ {ps : List Text} {gs : List Nat} (h : List.Forall₂ IsGroup ps gs) :
    ∀ p ∈ ps, IsPiece p := by
  induction h with
  | nil => exact List.forall_mem_nil _
  | cons hp _ ih => exact List.forall_mem_cons.mpr ⟨hp.isPiece, ih⟩

theorem mapM_group?_eq_some_iff {ps : List Text} {gs : List Nat} :
    ps.mapM group? = some gs ↔ List.Forall₂ IsGroup ps gs := by
  rw [mapM_eq_some_iff]
  simp only [group?_eq_some_iff]

theorem parseGroups?_eq_some_iff {s : Text} {gs : List Nat} :
    parseGroups? s = some gs ↔ SpellsGroups s gs := by
  constructor
  · intro h
    unfold parseGroups? at h
    split at h
    · obtain ⟨hread, hlength⟩ := Option.filter_eq_some_iff.mp h
      have hfull := SpellsGroups.full (trailingGroups?_eq_some_iff.mp hread)
        (of_decide_eq_true hlength)
      rwa [joined_pieces] at hfull
    · rename_i front back hcut
      obtain ⟨gs, hfront, h⟩ := Option.bind_eq_some_iff.mp h
      obtain ⟨gs', hback, h⟩ := Option.bind_eq_some_iff.mp h
      split_ifs at h with hlength
      obtain rfl := Option.some.inj h
      have hcompressed := SpellsGroups.compressed (mapM_group?_eq_some_iff.mp hfront)
        (trailingGroups?_eq_some_iff.mp hback) hlength
      rwa [joined_pieces, joined_pieces, ← splitFirst?_eq_some hcut] at hcompressed
  · intro h
    cases h with
    | @full ps gs hps hlength =>
      have hmark : splitFirst? "::".toList (joined ps) = none := by
        have hcut := splitFirst?_joined hps.isPiece []
        rwa [List.append_nil] at hcut
      rw [parseGroups?, hmark]
      simp only [pieces_joined hps.isPiece, trailingGroups?_eq_some_iff.mpr hps]
      exact Option.filter_eq_some_iff.mpr ⟨rfl, decide_eq_true hlength⟩
    | @compressed ps qs front back hps hqs hlength =>
      have hpieces := isPiece_of_forall₂ hps
      have hmark : splitFirst? "::".toList (joined ps ++ "::".toList ++ joined qs) =
          some (joined ps, joined qs) := by
        rw [List.append_assoc, splitFirst?_joined hpieces]
        simp [splitFirst?]
      rw [parseGroups?, hmark]
      simp only [pieces_joined hpieces, pieces_joined hqs.isPiece, mapM_group?_eq_some_iff.mpr hps,
        trailingGroups?_eq_some_iff.mpr hqs, Option.bind_eq_bind, Option.bind_some]
      exact if_pos hlength

/-- The text of a long address has a colon. -/
theorem SpellsGroups.colon_mem {s : Text} {gs : List Nat} (h : SpellsGroups s gs) : ':' ∈ s := by
  cases h with
  | @full ps gs hps hlength =>
    match ps, hps with
    | [], .nil => cases hlength
    | [_], .short bits => cases hlength
    | [_], .cons _ .nil => cases hlength
    | p :: q :: ps, _ => simp [joined_cons_cons]
  | compressed => simp

theorem SpellsGroups.eq_of_mem {s : Text} {gs : List Nat} (h : SpellsGroups s gs) {c : Char}
    (hmem : c ∈ s) (hc : hexValue? c = none) : c = '.' ∨ c = ':' := by
  cases h with
  | full hps hlength => exact eq_of_mem_joined hps.isPiece hmem hc
  | compressed hps hqs hlength =>
    rcases List.mem_append.mp hmem with hmem | hmem
    · rcases List.mem_append.mp hmem with hmem | hmem
      · exact eq_of_mem_joined (isPiece_of_forall₂ hps) hmem hc
      · exact .inr (by simpa using hmem)
    · exact eq_of_mem_joined hqs.isPiece hmem hc

/-- An address consists of digits, dots and colons. -/
theorem Spells.eq_of_mem {s : Text} {a : Address} (h : Spells s a) {c : Char} (hmem : c ∈ s)
    (hc : hexValue? c = none) : c = '.' ∨ c = ':' := by
  cases h with
  | short bits => exact .inl (eq_dot_of_mem_renderShort hmem hc)
  | long hgs => exact hgs.eq_of_mem hmem hc

/-- **What is read as an address.** -/
theorem parse?_eq_some_iff {s : Text} {a : Address} : parse? s = some a ↔ Spells s a := by
  constructor
  · intro h
    unfold parse? at h
    split at h
    · rename_i bits hbits
      obtain rfl := Option.some.inj h
      rw [parseShort?_eq_some_iff.mp hbits]
      exact .short bits
    · obtain ⟨bits, hbits, rfl⟩ := Option.map_eq_some_iff.mp h
      obtain ⟨gs, hgs, rfl⟩ := Option.map_eq_some_iff.mp hbits
      exact .long (parseGroups?_eq_some_iff.mp hgs)
  · intro h
    cases h with
    | short bits => rw [parse?, parseShort?_eq_some_iff.mpr rfl]
    | long hgs =>
      have hshort : parseShort? s = none := by
        rw [Option.eq_none_iff_forall_ne_some]
        rintro bits hbits
        have hcolon := hgs.colon_mem
        rw [parseShort?_eq_some_iff.mp hbits] at hcolon
        exact absurd hcolon (isPiece_renderShort bits).not_mem
      rw [parse?, hshort, parseLong?, parseGroups?_eq_some_iff.mpr hgs]
      rfl

/-- A text says one address only. -/
theorem Spells.unique {s : Text} {a b : Address} (ha : Spells s a) (hb : Spells s b) : a = b :=
  Option.some.inj ((parse?_eq_some_iff.mpr ha).symm.trans (parse?_eq_some_iff.mpr hb))

end Address

end ProxyAuth
