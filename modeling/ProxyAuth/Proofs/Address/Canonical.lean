import Mathlib.Tactic
import ProxyAuth.Address

/-!
# Bits and canonical addresses

* `bit`: an address bit by bit;
* `isMapped_iff`: what a wrapped short address looks like, bit by bit;
* `canonical_mapped`: wrapping a short address does not change for whom it stands.
-/

namespace ProxyAuth.Address

/-- The `i`-th bit, the most significant one first; behind the last one there are zeros only. -/
def bit : Address → Nat → Bool
  | .v4 bits, i => bits.getMsbD i
  | .v6 bits, i => bits.getMsbD i

theorem width_le (a : Address) : a.width ≤ 128 := by
  cases a with
  | v4 bits => exact (by decide : 32 ≤ 128)
  | v6 bits => exact le_rfl

theorem bit_of_width_le {a : Address} {i : Nat} (h : a.width ≤ i) : a.bit i = false := by
  cases a with
  | v4 bits => exact BitVec.getMsbD_of_ge bits i h
  | v6 bits => exact BitVec.getMsbD_of_ge bits i h

/-! ### Wrapped short addresses -/

/-- A wrapped short address starts with eighty zeros and sixteen ones. -/
theorem isMapped_iff {bits : BitVec 128} :
    isMapped bits = true ↔ ∀ i < 96, bits.getMsbD i = decide (80 ≤ i) := by
  have hfront : isMapped bits = true ↔ bits >>> 32 = 0xffff#128 := by
    rw [isMapped, decide_eq_true_eq, ← BitVec.toNat_inj, BitVec.toNat_ushiftRight,
      Nat.shiftRight_eq_div_pow]
    rfl
  have hones : ∀ i < 128, (0xffff#128).getMsbD i = decide (112 ≤ i) := by decide
  rw [hfront]
  constructor
  · intro h i hi
    have hbit := congrArg (fun x : BitVec 128 => x.getMsbD (i + 32)) h
    rw [BitVec.getMsbD_ushiftRight, hones _ (by omega)] at hbit
    simpa [show i + 32 < 128 by omega] using hbit
  · intro h
    apply BitVec.eq_of_getMsbD_eq
    intro i hi
    rw [BitVec.getMsbD_ushiftRight, hones i hi]
    by_cases hlow : i < 32
    · simp [hlow]
      omega
    · rw [h (i - 32) (by omega)]
      simp [hi, hlow]
      omega

@[simp] theorem isMapped_mapped (bits : BitVec 32) : isMapped (mapped bits) = true := by
  have hfront : ∀ i < 96, (0xffff#96).getMsbD i = decide (80 ≤ i) := by decide
  refine isMapped_iff.mpr fun i hi => ?_
  rw [mapped, BitVec.getMsbD_append, if_neg (by omega), hfront i hi]

@[simp] theorem unwrap_mapped (bits : BitVec 32) : unwrap (mapped bits) = bits := by
  apply BitVec.eq_of_getLsbD_eq
  intro i hi
  rw [unwrap, mapped, BitVec.getLsbD_setWidth, BitVec.getLsbD_append]
  simp [hi]

/-- A short address and the long one that wraps it stand for the same. -/
@[simp] theorem canonical_mapped (bits : BitVec 32) :
    canonical (.v6 (mapped bits)) = .v4 bits := by
  rw [canonical, if_pos (isMapped_mapped bits), unwrap_mapped]

end ProxyAuth.Address
