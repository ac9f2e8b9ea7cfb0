import Mathlib.Tactic
import ProxyAuth.Header.Parser
import ProxyAuth.Proofs.Header.Bounds

/-!
# What a look-up finds after calls

A call that succeeds is seen by the look-ups of its own name and by no other.  Of several
assignments for one name a look-up finds the last.

* `get?_of_store`: one call;
* `exists_setAll`: legal assignments are stored, and what a look-up finds then.
-/

namespace ProxyAuth.Header

open Text

/-- What a successful call does to every look-up. -/
theorem get?_of_store {h stored : Header} {replace : Bool} {name value : Text}
    (hs : (h.store replace name value).result = .ok stored) (other : Text) :
    stored.get? other = if lower other = lower name then some value else h.get? other := by
  obtain ⟨-, -, -, rfl⟩ := result_store_eq_ok_iff.mp hs
  show (put (lower name) value h.parameters).lookup (lower other) = _
  split_ifs with he
  · rw [he, lookup_put_self]
  · exact lookup_put_of_ne value h.parameters he

/-- Only a new name can be added. -/
theorem get?_eq_none_of_add {h stored : Header} {name value : Text}
    (hs : (h.add name value).result = .ok stored) : h.get? name = none := by
  obtain ⟨-, hpresent, -, -⟩ := result_store_eq_ok_iff.mp hs
  by_contra hne
  exact absurd (hpresent (Option.isSome_iff_ne_none.mpr hne)) (by decide)

theorem scheme_of_store {h stored : Header} {replace : Bool} {name value : Text}
    (hs : (h.store replace name value).result = .ok stored) : stored.scheme = h.scheme := by
  obtain ⟨-, -, -, rfl⟩ := result_store_eq_ok_iff.mp hs
  rfl

/-! ### Assignments -/

/-- The value of the last assignment for a name, by any spelling of it. -/
def lastValue? (ps : List (Text × Text)) (name : Text) : Option Text :=
  ((ps.filter fun p => lower p.1 = lower name).getLast?).map (·.2)

theorem lastValue?_cons (p : Text × Text) (ps : List (Text × Text)) (name : Text) :
    lastValue? (p :: ps) name =
      (lastValue? ps name).or (if lower p.1 = lower name then some p.2 else none) := by
  unfold lastValue?
  by_cases hp : lower p.1 = lower name
  · rw [List.filter_cons_of_pos (by simpa using hp), List.getLast?_cons, if_pos hp]
    cases (ps.filter fun p => lower p.1 = lower name).getLast? <;> rfl
  · rw [List.filter_cons_of_neg (by simpa using hp), if_neg hp, Option.or_none]

/-- Of assignments for different names in lower case, the last one for a name is the only one. -/
theorem lastValue?_eq_lookup {ps : List (Text × Text)} (hlower : ∀ p ∈ ps, lower p.1 = p.1)
    (hdistinct : (ps.map Prod.fst).Nodup) (name : Text) :
    lastValue? ps name = ps.lookup (lower name) := by
  induction ps with
  | nil => rfl
  | cons p ps ih =>
    rw [List.map_cons, List.nodup_cons] at hdistinct
    rw [lastValue?_cons, hlower p List.mem_cons_self,
      ih (fun q hq => hlower q (List.mem_cons_of_mem _ hq)) hdistinct.2, List.lookup_cons]
    by_cases hname : p.1 = lower name
    · have hnone : ps.lookup (lower name) = none := by
        rw [List.lookup_eq_none_iff]
        intro q hq
        have hne : lower name ≠ q.1 := fun he =>
          hdistinct.1 (hname ▸ he ▸ List.mem_map_of_mem (f := Prod.fst) hq)
        simpa using hne
      simp [hname, hnone]
    · have hne : (lower name == p.1) = false := by simpa using Ne.symm hname
      simp [hname, hne]

/-- Putting a value adds at most one parameter. -/
theorem length_put_le (name value : Text) (ps : List (Text × Text)) :
    (put name value ps).length ≤ ps.length + 1 := by
  induction ps with
  | nil => exact le_rfl
  | cons p ps ih =>
    unfold put
    split_ifs
    · exact Nat.le_succ _
    · exact le_rfl
    · exact Nat.succ_le_succ ih

/-- Legal assignments are stored as long as there is room, and each name gets the last of its
values. -/
theorem exists_setAll {ps : List (Text × Text)} {h : Header}
    (hlegal : ∀ p ∈ ps, parameterFault? p.1 p.2 = none)
    (hlength : h.parameters.length + ps.length ≤ maxParameters) :
    ∃ stored, setAll h ps = .ok stored ∧ stored.scheme = h.scheme ∧
      ∀ name, stored.get? name = (lastValue? ps name).or (h.get? name) := by
  induction ps generalizing h with
  | nil => exact ⟨h, rfl, rfl, fun name => rfl⟩
  | cons p ps ih =>
    rw [List.length_cons] at hlength
    obtain ⟨next, hset⟩ : ∃ next, (set h p.1 p.2).result = .ok next :=
      ⟨_, result_store_eq_ok_iff.mpr
        ⟨hlegal p List.mem_cons_self, fun _ => rfl, fun _ => by omega, rfl⟩⟩
    have hroom : next.parameters.length ≤ h.parameters.length + 1 := by
      obtain ⟨-, -, -, rfl⟩ := result_store_eq_ok_iff.mp hset
      exact length_put_le _ _ _
    obtain ⟨stored, hall, hscheme, hget⟩ :=
      ih (fun q hq => hlegal q (List.mem_cons_of_mem _ hq)) (h := next) (by omega)
    refine ⟨stored, ?_, hscheme.trans (scheme_of_store hset), fun name => ?_⟩
    · change ((set h p.1 p.2).result >>= fun next => setAll next ps) = .ok stored
      exact bind_eq_ok.mpr ⟨next, hset, hall⟩
    · rw [hget, get?_of_store hset, lastValue?_cons, Option.or_assoc]
      by_cases hp : lower p.1 = lower name
      · simp [hp]
      · simp [hp, Ne.symm hp]

end ProxyAuth.Header
