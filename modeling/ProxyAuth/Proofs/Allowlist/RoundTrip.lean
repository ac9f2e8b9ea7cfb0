import Mathlib.Tactic
import ProxyAuth.Proofs.Allowlist.Grammar

/-!
# Allowlists are read back from their texts

The text of a subnet that was made says this subnet again: its base is canonical and has zeros
behind the shared bits, so neither the canonical form nor the mask changes it.  Blanks around the
texts and commas between them are taken off again.

* `says_render`: the text of a subnet says it;
* `entries_render`: the entries of a printed list;
* `parse_render_of_paddings`: a list is read back.
-/

namespace ProxyAuth

open Text

/-! ### The text of a subnet -/

namespace Subnet

/-- No blank and no comma stands in the text of a subnet. -/
theorem not_mem_render (s : Subnet) {c : Char} (hc : hexValue? c = none) (hdot : c ≠ '.')
    (hcolon : c ≠ ':') (hslash : c ≠ '/') : c ∉ s.render := by
  rw [render, List.mem_append, List.mem_cons, not_or, not_or]
  refine ⟨fun h => ?_, hslash, not_mem_decimal hc s.length⟩
  exact ((Address.spells_render s.base).eq_of_mem h hc).elim hdot hcolon

theorem isTrimmed_render (s : Subnet) : IsTrimmed s.render :=
  .of_forall fun c hmem => by
    by_contra hblank
    rw [Bool.not_eq_false] at hblank
    have hne {d : Char} (hd : isBlank d = false) : c ≠ d := ne_of_isBlank hblank hd
    exact s.not_mem_render (hexValue?_of_isBlank hblank) (hne (by decide)) (hne (by decide))
      (hne (by decide)) hmem

end Subnet

namespace Allowlist

theorem says_render {s : Subnet} (h : s.WellFormed) : Says s.render s := by
  have hnumber : IsUnsigned 10 (decimal s.length) s.length :=
    .bare ((value?_eq_some_iff (by decide)).mp (value?_decimal s.length))
  have hwidth : s.length ≤ s.base.canonical.width := by
    rw [h.canonical_base]
    exact h.length_le
  exact ⟨s.base, .masked (Address.spells_render s.base) hnumber hwidth, h.contains_base⟩

/-! ### The text of a list -/

/-- A subnet that was made, and blanks to put around its text. -/
structure Padded where
  front : Text
  subnet : Subnet
  back : Text
  front_isBlank : ∀ c ∈ front, isBlank c = true
  reachable : subnet.Reachable
  back_isBlank : ∀ c ∈ back, isBlank c = true

/-- The text of the subnet with the blanks around it. -/
def Padded.render (p : Padded) : Text := p.front ++ (p.subnet.render ++ p.back)

/-- The texts of subnets, with commas between them. -/
def render (ps : List Padded) : Text := [','].intercalate (ps.map Padded.render)

theorem Padded.trim_render (p : Padded) : trim p.render = p.subnet.render :=
  trim_padded p.front_isBlank p.subnet.isTrimmed_render p.back_isBlank

theorem Padded.comma_not_mem_render (p : Padded) : ',' ∉ p.render := by
  have hblank : ∀ {blanks : Text}, (∀ c ∈ blanks, isBlank c = true) → ',' ∉ blanks :=
    fun h hmem => ne_of_isBlank (h _ hmem) (by decide) rfl
  rw [render, List.mem_append, List.mem_append, not_or, not_or]
  exact ⟨hblank p.front_isBlank,
    p.subnet.not_mem_render (by decide) (by decide) (by decide) (by decide),
    hblank p.back_isBlank⟩

theorem Padded.render_ne_nil (p : Padded) : p.render ≠ [] := by
  simp [render, Subnet.render]

theorem entries_render (ps : List Padded) :
    entries (render ps) = ps.map fun p => p.subnet.render := by
  cases ps with
  | nil => rfl
  | cons p ps =>
    have hsplit : (render (p :: ps)).splitOn ',' = (p :: ps).map Padded.render := by
      refine List.splitOn_intercalate ',' ?_ (by simp)
      intro s hs
      obtain ⟨q, -, rfl⟩ := List.mem_map.mp hs
      exact q.comma_not_mem_render
    have hne : render (p :: ps) ≠ [] := fun hnil => by
      rw [hnil, List.splitOn_nil, List.map_cons] at hsplit
      exact p.render_ne_nil (List.cons_eq_cons.mp hsplit).1.symm
    rw [entries, if_neg hne, hsplit, List.map_map]
    exact List.map_congr_left fun q _ => q.trim_render

/-- **A list is read back from its text**, whatever blanks stand around the texts of the subnets. -/
theorem parse_render_of_paddings (ps : List Padded) :
    parse (render ps) = .ok (ps.map Padded.subnet) := by
  rw [parse_eq_ok_iff, entries_render, List.forall₂_map_left_iff, List.forall₂_map_right_iff,
    List.forall₂_same]
  exact fun p _ => says_render (Subnet.reachable_iff.mp p.reachable)

/-- A subnet around a short address and a single address of the other family, with blanks of several
kinds on either side. -/
theorem parse_render_of_both_families :
    let network : Subnet := ⟨.v4 0x0a140000, 16⟩
    let host : Subnet := ⟨.v6 0x20010db8000000000000000000000001, 128⟩
    ∃ ps : List Padded,
      render ps = " \t10.20.0.0/16\u00a0,2001:db8::1/128 \n".toList ∧
      ps.map Padded.subnet = [network, host] ∧ parse (render ps) = .ok [network, host] := by
  intro network host
  let ps : List Padded :=
    [⟨[' ', '\t'], network, ['\u00a0'], List.all_eq_true.mp (by decide +kernel),
        .inl ⟨.v4 0x0a141e28, 16, by decide⟩, List.all_eq_true.mp (by decide +kernel)⟩,
      ⟨[], host, [' ', '\n'], List.forall_mem_nil _, .inr ⟨host.base, by decide⟩,
        List.all_eq_true.mp (by decide +kernel)⟩]
  exact ⟨ps, by decide +kernel, rfl, parse_render_of_paddings ps⟩

end Allowlist

end ProxyAuth
