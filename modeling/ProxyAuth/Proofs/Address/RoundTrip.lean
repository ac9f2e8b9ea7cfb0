import Mathlib.Tactic
import ProxyAuth.Proofs.Address.Grammar

/-!
# Addresses are read back from their texts

What is printed for an address is one of the ways in which it can be written, so it is read back.

* `longestRun_spec`: what is compressed in a long address is a run of zeros;
* `spells_render`: the printed form keeps to the grammar of addresses;
* `parse?_render`, `render_injective`: an address is read back from its text, so different addresses
  have different texts.
-/

namespace ProxyAuth

open Text

namespace Address

/-! ### Groups -/

theorem isGroup_hexadecimal {n : Nat} (h : n < 65536) : IsGroup (hexadecimal n) n where
  isNumeral := isNumeral_hexadecimal n
  length_le := (Nat.length_toDigits_le_iff (by decide) (by decide)).mpr h

theorem forall₂_hexadecimal {gs : List Nat} (h : ∀ g ∈ gs, g < 65536) :
    List.Forall₂ IsGroup (gs.map hexadecimal) gs := by
  rw [List.forall₂_map_left_iff, List.forall₂_same]
  exact fun g hg => isGroup_hexadecimal (h g hg)

theorem isTail_hexadecimal {gs : List Nat} (h : ∀ g ∈ gs, g < 65536) :
    IsTail (gs.map hexadecimal) gs := by
  induction gs with
  | nil => exact .nil
  | cons g gs ih =>
    exact .cons (isGroup_hexadecimal (h g List.mem_cons_self))
      (ih fun g' hg' => h g' (List.mem_cons_of_mem _ hg'))

theorem length_groups (bits : BitVec 128) : (groups bits).length = 8 := length_parts _ _ _

theorem lt_of_mem_groups {bits : BitVec 128} {g : Nat} (h : g ∈ groups bits) : g < 65536 :=
  lt_of_mem_parts (by decide) h

theorem ofNat_groups (bits : BitVec 128) :
    BitVec.ofNat 128 (ofParts 65536 (groups bits)) = bits := by
  rw [groups, ofParts_parts]
  apply BitVec.eq_of_toNat_eq
  have := bits.isLt
  rw [BitVec.toNat_ofNat]
  omega

/-! ### Long addresses -/

/-- The zeros at the front of a list. -/
theorem eq_replicate_leadingZeros (gs : List Nat) :
    gs = List.replicate (leadingZeros gs) 0 ++ gs.dropWhile (· = 0) := by
  have hzeros : gs.takeWhile (· = 0) = List.replicate (leadingZeros gs) 0 :=
    List.eq_replicate_iff.mpr ⟨rfl, fun g hg => by simpa using List.mem_takeWhile_imp hg⟩
  rw [← hzeros, List.takeWhile_append_dropWhile]

/-- The longest run is a run of zeros. -/
theorem longestRun_spec (i : Nat) (gs : List Nat) :
    ∃ before after, gs = before ++ List.replicate (longestRun i gs).2 0 ++ after ∧
      (longestRun i gs).1 = i + before.length := by
  induction gs generalizing i with
  | nil => exact ⟨[], [], rfl, rfl⟩
  | cons g gs ih =>
    rw [longestRun]
    split_ifs
    -- Either the run that starts here is the longest, or a later one is.
    · exact ⟨[], (g :: gs).dropWhile (· = 0), eq_replicate_leadingZeros (g :: gs), rfl⟩
    · obtain ⟨before, after, hgs, hstart⟩ := ih (i + 1)
      refine ⟨g :: before, after, ?_, ?_⟩
      · rw [List.cons_append, List.cons_append, ← hgs]
      · rw [hstart, List.length_cons]
        omega

/-- A run of two or more zero groups can be left out. -/
theorem spellsGroups_compressed {before after : List Nat} {n : Nat} (hn : 2 ≤ n)
    (hlength : before.length + n + after.length = 8) (hbefore : ∀ g ∈ before, g < 65536)
    (hafter : ∀ g ∈ after, g < 65536) :
    SpellsGroups (renderGroups before ++ "::".toList ++ renderGroups after)
      (before ++ List.replicate n 0 ++ after) := by
  have hspells := SpellsGroups.compressed (forall₂_hexadecimal hbefore) (isTail_hexadecimal hafter)
    (by omega)
  rwa [show 8 - before.length - after.length = n by omega] at hspells

theorem spellsGroups_renderLong (bits : BitVec 128) :
    SpellsGroups (renderLong bits) (groups bits) := by
  obtain ⟨before, after, hgs, hstart⟩ := longestRun_spec 0 (groups bits)
  rw [renderLong]
  generalize longestRun 0 (groups bits) = run at hgs hstart
  obtain ⟨start, n⟩ := run
  obtain rfl : start = before.length := by simpa using hstart
  dsimp only at hgs ⊢
  split_ifs with hn
  · have hlength := length_groups bits
    have hlt : ∀ g, g ∈ before ∨ g ∈ after → g < 65536 := by
      intro g hg
      have hmem : g ∈ groups bits := by
        rw [hgs]
        rcases hg with hg | hg <;> simp [hg]
      exact lt_of_mem_groups hmem
    rw [hgs] at hlength ⊢
    simp only [List.length_append, List.length_replicate] at hlength
    have htake : (before ++ List.replicate n 0 ++ after).take before.length = before := by
      rw [List.append_assoc, List.take_left]
    have hdrop : (before ++ List.replicate n 0 ++ after).drop (before.length + n) = after := by
      rw [List.drop_left' (by simp)]
    rw [htake, hdrop]
    exact spellsGroups_compressed hn hlength (fun g hg => hlt g (.inl hg))
      fun g hg => hlt g (.inr hg)
  · exact .full (isTail_hexadecimal fun g hg => lt_of_mem_groups hg) (length_groups bits)

/-- The word of a wrapped short address. -/
theorem ofParts_wrapped (bits : BitVec 32) :
    ofParts 65536 (List.replicate 5 0 ++ 0xffff :: groupsOfShort bits) =
      0xffff * 0x100000000 + bits.toNat := by
  have := bits.isLt
  show (((((((0 * 65536 + 0) * 65536 + 0) * 65536 + 0) * 65536 + 0) * 65536 + 0xffff) * 65536 +
    bits.toNat / 65536 % 65536) * 65536 + bits.toNat % 65536) = _
  omega

/-- A wrapped short address is printed as such, the five zero groups in front of it left out. -/
theorem spells_mapped {bits : BitVec 128} (h : isMapped bits = true) :
    Spells ("::ffff:".toList ++ renderShort (unwrap bits)) (.v6 bits) := by
  have hffff : IsGroup "ffff".toList 0xffff := group?_eq_some_iff.mp (by decide)
  have hgroups : SpellsGroups ("::ffff:".toList ++ renderShort (unwrap bits))
      (List.replicate 5 0 ++ 0xffff :: groupsOfShort (unwrap bits)) := by
    have hcompressed := SpellsGroups.compressed .nil (.cons hffff (.short (unwrap bits)))
      (show 3 ≤ 7 by decide)
    rw [joined_cons_cons, joined_singleton] at hcompressed
    exact hcompressed
  have hbits : BitVec.ofNat 128
      (ofParts 65536 (List.replicate 5 0 ++ 0xffff :: groupsOfShort (unwrap bits))) = bits := by
    have hmapped : bits.toNat / 0x100000000 = 0xffff := by simpa [isMapped] using h
    apply BitVec.eq_of_toNat_eq
    rw [BitVec.toNat_ofNat, ofParts_wrapped, unwrap, BitVec.toNat_setWidth]
    omega
  have hspells := Spells.long hgroups
  rwa [hbits] at hspells

/-! ### Both families -/

theorem spells_render (a : Address) : Spells a.render a := by
  cases a with
  | v4 bits => exact .short bits
  | v6 bits =>
    rw [render]
    split_ifs with h
    · exact spells_mapped h
    · have hspells := Spells.long (spellsGroups_renderLong bits)
      rwa [ofNat_groups] at hspells

/-- **An address is read back from its text.** -/
theorem parse?_render (a : Address) : parse? a.render = some a :=
  parse?_eq_some_iff.mpr (spells_render a)

/-- Different addresses have different texts. -/
theorem render_injective : Function.Injective render := by
  intro a b h
  have hparse := congrArg parse? h
  rw [parse?_render, parse?_render] at hparse
  exact Option.some.inj hparse

end Address

end ProxyAuth
