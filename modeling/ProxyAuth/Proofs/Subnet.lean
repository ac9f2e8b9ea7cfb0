import Mathlib.Tactic
import ProxyAuth.Proofs.Address.Canonical
import ProxyAuth.Subnet

/-!
# The members of a subnet

A subnet of length `n` around an address has as its members exactly the addresses of the same family
that agree with it in their first `n` bits.  It is stored by its least member, which is canonical as
well: zeros behind the first bits never make a long address look like a wrapped short one.

* `mask?_eq_some_iff`: masking keeps the first bits of an address that has so many;
* `contains_iff`: a member is an address with the base as its first bits;
* `WellFormed`, `reachable_iff`: the subnets that can be made are those with a canonical base that
  ends in zeros;
* `contains_iff_same_leading_bits`: the members of a subnet, its base, and that no address is ever
  masked to more bits than it has.
-/

namespace ProxyAuth.Subnet

open Address

/-! ### Masking -/

theorem getMsbD_shiftLeft_allOnes {w n : Nat} (i : Nat) (h : n ≤ w) :
    (BitVec.allOnes w <<< (w - n)).getMsbD i = decide (i < n) := by
  rw [BitVec.getMsbD_shiftLeft, BitVec.getMsbD_allOnes, decide_eq_decide]
  omega

/-- Masking keeps the first bits of a word that has so many. -/
theorem keepFirst?_eq_some_iff {w n : Nat} {bits kept : BitVec w} :
    keepFirst? n bits = some kept ↔
      n ≤ w ∧ ∀ i, kept.getMsbD i = (decide (i < n) && bits.getMsbD i) := by
  by_cases hn : n ≤ w
  · have hbit (i : Nat) : (bits &&& BitVec.allOnes w <<< (w - n)).getMsbD i =
        (decide (i < n) && bits.getMsbD i) := by
      rw [BitVec.getMsbD_and, getMsbD_shiftLeft_allOnes i hn, Bool.and_comm]
    rw [keepFirst?, if_pos hn, Option.some.injEq, and_iff_right hn]
    constructor
    · rintro rfl
      exact hbit
    · exact fun h => BitVec.eq_of_getMsbD_eq fun i _ => (hbit i).trans (h i).symm
  · rw [keepFirst?, if_neg hn]
    exact iff_of_false nofun fun h => hn h.1

/-- Masking keeps the family and the first bits of an address that has so many. -/
theorem mask?_eq_some_iff {n : Nat} {a m : Address} :
    mask? n a = some m ↔
      n ≤ a.width ∧ m.width = a.width ∧ ∀ i, m.bit i = (decide (i < n) && a.bit i) := by
  cases a <;> cases m <;>
    simp [mask?, Option.map_eq_some_iff, keepFirst?_eq_some_iff, width, bit]

theorem exists_mask?_iff {n : Nat} {a : Address} : (∃ m, mask? n a = some m) ↔ n ≤ a.width := by
  constructor
  · rintro ⟨m, h⟩
    exact (mask?_eq_some_iff.mp h).1
  · intro h
    cases a <;> simpa [mask?, keepFirst?, width] using h

/-- Addresses have one mask where they agree in their first bits. -/
theorem mask?_eq_iff {n : Nat} {a m : Address} (h : mask? n a = some m) (b : Address) :
    mask? n b = some m ↔ b.width = a.width ∧ ∀ i < n, b.bit i = a.bit i := by
  obtain ⟨hn, hwidth, hbit⟩ := mask?_eq_some_iff.mp h
  rw [mask?_eq_some_iff]
  constructor
  · rintro ⟨-, hwidth', hbit'⟩
    refine ⟨hwidth'.symm.trans hwidth, fun i hi => ?_⟩
    have hsame := (hbit' i).symm.trans (hbit i)
    simpa [hi] using hsame
  · rintro ⟨hwidth', hbit'⟩
    refine ⟨by omega, by omega, fun i => ?_⟩
    rw [hbit i]
    by_cases hi : i < n
    · rw [hbit' i hi]
    · rw [decide_eq_false hi, Bool.false_and, Bool.false_and]

/-- An address without bits behind the first ones is its own mask. -/
theorem mask?_self_iff {n : Nat} {a : Address} :
    mask? n a = some a ↔ n ≤ a.width ∧ ∀ i, n ≤ i → a.bit i = false := by
  rw [mask?_eq_some_iff]
  refine and_congr_right fun _ => ⟨fun h i hi => ?_, fun h => ⟨rfl, fun i => ?_⟩⟩
  · rw [h.2 i, decide_eq_false (by omega), Bool.false_and]
  · by_cases hi : i < n
    · rw [decide_eq_true hi, Bool.true_and]
    · rw [h i (by omega), Bool.and_false]

/-- A mask is its own mask. -/
theorem mask?_mask {n : Nat} {a m : Address} (h : mask? n a = some m) : mask? n m = some m := by
  obtain ⟨hn, hwidth, hbit⟩ := mask?_eq_some_iff.mp h
  refine mask?_self_iff.mpr ⟨by omega, fun i hi => ?_⟩
  rw [hbit i, decide_eq_false (by omega), Bool.false_and]

/-- Masking never makes a long address look like a wrapped short one. -/
theorem isMapped_of_keepFirst? {n : Nat} {bits kept : BitVec 128}
    (h : keepFirst? n bits = some kept) (hmapped : isMapped kept = true) :
    isMapped bits = true := by
  obtain ⟨-, hbit⟩ := keepFirst?_eq_some_iff.mp h
  have hfront := isMapped_iff.mp hmapped
  -- The last of the sixteen ones is kept, so everything in front of it is kept.
  have hlast : 95 < n := by
    have hone := hfront 95 (by decide)
    rw [hbit] at hone
    exact of_decide_eq_true (Bool.and_eq_true_iff.mp hone).1
  refine isMapped_iff.mpr fun i hi => ?_
  rw [← hfront i hi, hbit i, decide_eq_true (by omega), Bool.true_and]

theorem canonical_of_mask? {n : Nat} {a m : Address} (h : mask? n a = some m)
    (ha : a.canonical = a) : m.canonical = m := by
  cases a with
  | v4 bits =>
    obtain ⟨kept, -, rfl⟩ := Option.map_eq_some_iff.mp h
    rfl
  | v6 bits =>
    obtain ⟨kept, hkept, rfl⟩ := Option.map_eq_some_iff.mp h
    refine if_neg fun hmapped => ?_
    rw [canonical, if_pos (isMapped_of_keepFirst? hkept hmapped)] at ha
    cases ha

/-! ### Members -/

variable {s : Subnet}

/-- A member is an address with the base as its first bits. -/
theorem contains_iff (s : Subnet) (a : Address) :
    s.contains a = true ↔ mask? s.length a.canonical = some s.base := by
  obtain ⟨base, n⟩ := s
  unfold contains
  dsimp only
  cases base <;> cases a.canonical <;> simp [mask?]

theorem around?_eq_some_iff {a : Address} {n : Nat} :
    around? a n = some s ↔ mask? n a.canonical = some s.base ∧ s.length = n := by
  obtain ⟨base, length⟩ := s
  unfold around?
  dsimp only
  split_ifs with h
  · refine iff_of_false nofun fun hmask => ?_
    have hle := exists_mask?_iff.mp ⟨base, hmask.1⟩
    omega
  · simp [eq_comm]

/-- The subnet around an address is told by its length and by containing the address. -/
theorem around?_eq_some_iff_contains {a : Address} {n : Nat} :
    around? a n = some s ↔ n ≤ a.canonical.width ∧ s.length = n ∧ s.contains a = true := by
  rw [around?_eq_some_iff, contains_iff]
  constructor
  · rintro ⟨hmask, rfl⟩
    exact ⟨exists_mask?_iff.mp ⟨_, hmask⟩, rfl, hmask⟩
  · rintro ⟨-, rfl, hmask⟩
    exact ⟨hmask, rfl⟩

theorem around?_eq_none_iff {a : Address} {n : Nat} :
    around? a n = none ↔ a.canonical.width < n := by
  unfold around?
  dsimp only
  split_ifs with h
  · exact iff_of_true rfl h
  · obtain ⟨m, hm⟩ := exists_mask?_iff.mpr (not_lt.mp h)
    rw [hm]
    exact iff_of_false nofun h

/-- Addresses with one canonical form make the same subnets. -/
theorem around?_congr {a b : Address} (h : a.canonical = b.canonical) (n : Nat) :
    around? a n = around? b n := by
  rw [around?, around?, h]

theorem single_congr {a b : Address} (h : a.canonical = b.canonical) : single a = single b := by
  rw [single, single, h]

/-- A single address is a subnet of full length. -/
theorem around?_width (a : Address) : around? a a.canonical.width = some (single a) :=
  around?_eq_some_iff.mpr ⟨mask?_self_iff.mpr ⟨le_rfl, fun _ hi => bit_of_width_le hi⟩, rfl⟩

/-! ### The subnets that can be made -/

/-- Made around an address or of a single one. -/
def Reachable (s : Subnet) : Prop :=
  (∃ a n, around? a n = some s) ∨ ∃ a, single a = s

/-- A canonical base with zeros behind its first bits. -/
structure WellFormed (s : Subnet) : Prop where
  canonical_base : s.base.canonical = s.base
  mask_base : mask? s.length s.base = some s.base

theorem WellFormed.length_le (h : WellFormed s) : s.length ≤ s.base.width :=
  exists_mask?_iff.mp ⟨s.base, h.mask_base⟩

theorem wellFormed_of_around? {a : Address} {n : Nat} (h : around? a n = some s) :
    WellFormed s := by
  obtain ⟨hmask, rfl⟩ := around?_eq_some_iff.mp h
  exact ⟨canonical_of_mask? hmask (canonical_canonical a), mask?_mask hmask⟩

/-- A subnet is made around its own base. -/
theorem WellFormed.around?_base (h : WellFormed s) : around? s.base s.length = some s :=
  around?_eq_some_iff.mpr ⟨by rw [h.canonical_base, h.mask_base], rfl⟩

/-- The base is a member. -/
theorem WellFormed.contains_base (h : WellFormed s) : s.contains s.base = true :=
  (contains_iff s s.base).mpr (by rw [h.canonical_base, h.mask_base])

theorem reachable_iff : Reachable s ↔ WellFormed s := by
  constructor
  · rintro (⟨a, n, h⟩ | ⟨a, rfl⟩)
    · exact wellFormed_of_around? h
    · exact wellFormed_of_around? (around?_width a)
  · intro h
    exact .inl ⟨s.base, s.length, h.around?_base⟩

/-- **Containment is agreement of the leading bits.**  A subnet is refused where its length exceeds
the width of the canonical address.  Otherwise its members are the addresses of the same family that
agree in as many leading bits; its base is canonical, has zeros behind these bits, is a member, and
makes the same subnet again.  A single address is the subnet of full length.  Every address that is
masked, to make a subnet that is not refused or to ask a subnet that was made about an address of
its family, has the bits that the mask keeps. -/
theorem contains_iff_same_leading_bits (a : Address) (n : Nat) :
    (around? a n = none ↔ a.canonical.width < n) ∧
    (∀ s, around? a n = some s →
      (∀ b : Address, s.contains b = true ↔
        b.canonical.width = a.canonical.width ∧
          ∀ i < n, b.canonical.bit i = a.canonical.bit i) ∧
      s.length = n ∧ s.base.canonical = s.base ∧ (∀ i, n ≤ i → s.base.bit i = false) ∧
      s.contains s.base = true ∧ around? s.base n = some s) ∧
    around? a a.canonical.width = some (single a) ∧
    (a.canonical.width < n ∨ ∃ m, mask? n a.canonical = some m) ∧
    ∀ s, Reachable s → ∀ b : Address, b.canonical.width = s.base.width →
      ∃ m, mask? s.length b.canonical = some m := by
  refine ⟨around?_eq_none_iff, fun s hs => ?_, around?_width a, ?_, fun s hs b hb => ?_⟩
  · have hw := wellFormed_of_around? hs
    obtain ⟨hmask, rfl⟩ := around?_eq_some_iff.mp hs
    refine ⟨fun b => ?_, rfl, hw.canonical_base, (mask?_self_iff.mp hw.mask_base).2,
      hw.contains_base, hw.around?_base⟩
    rw [contains_iff]
    exact mask?_eq_iff hmask b.canonical
  · rw [exists_mask?_iff]
    exact lt_or_ge _ _
  · have hle := (reachable_iff.mp hs).length_le
    exact exists_mask?_iff.mpr (by omega)

/-- Twelve bits of a wrapped short address: its neighbour is a member, written in either form. -/
theorem contains_neighbour_of_wrapped_address :
    let a := Address.v6 (mapped 0x0a141e28)
    around? a 12 = some ⟨.v4 0x0a100000, 12⟩ ∧
      contains ⟨.v4 0x0a100000, 12⟩ (.v6 (mapped 0x0a1fffff)) = true ∧
      contains ⟨.v4 0x0a100000, 12⟩ (.v4 0x0a200000) = false := by
  intro a
  have hs : around? a 12 = some ⟨.v4 0x0a100000, 12⟩ := by decide
  have hmembers := ((contains_iff_same_leading_bits a 12).2.1 _ hs).1
  refine ⟨hs, (hmembers _).mpr (by decide), Bool.eq_false_iff.mpr ?_⟩
  rw [Ne, hmembers]
  decide

end ProxyAuth.Subnet
