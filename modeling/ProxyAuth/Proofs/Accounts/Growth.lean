import Mathlib.Tactic
import ProxyAuth.Proofs.Accounts

/-!
# Tables that grow

A table with further accounts, seen through its look-ups.  As long as the accounts are new to the
table, every account that was there is still found, each of the new ones is, and no other.

* `extended`: the table with further accounts;
* `AreNew`: accounts that can be added;
* `Extends`, `AreNew.extends`: what is found in the table afterwards;
* `Extends.get?_eq_of_perm`: the order in which they are added does not matter.
-/

namespace ProxyAuth.Accounts

open Text

variable {accounts grown : Accounts} {account : Account} {added : List Account} {name : Text}

/-- The table with further accounts, the last of them first. -/
def extended (accounts : Accounts) (added : List Account) : Accounts :=
  ⟨added.reverse ++ accounts.toList⟩

@[simp] theorem extended_nil (accounts : Accounts) : accounts.extended [] = accounts := rfl

theorem extended_append (accounts : Accounts) (front back : List Account) :
    accounts.extended (front ++ back) = (accounts.extended front).extended back := by
  simp [extended]

theorem get?_extended_singleton (accounts : Accounts) (account : Account) (name : Text) :
    (accounts.extended [account]).get? name =
      if account.name = name then some account else accounts.get? name := by
  by_cases hname : account.name = name <;> simp [extended, get?, hname]

theorem isSome_get?_extended (accounts : Accounts) (added : List Account) (name : Text) :
    ((accounts.extended added).get? name).isSome ↔
      (accounts.get? name).isSome ∨ ∃ earlier ∈ added, earlier.name = name := by
  simp [extended, get?, or_comm]

/-- New accounts for a table: no two have the same name, and none has a name of the table. -/
structure AreNew (accounts : Accounts) (added : List Account) : Prop where
  nodup : (added.map Account.name).Nodup
  get?_eq_none : ∀ account ∈ added, accounts.get? account.name = none

theorem areNew_cons_iff : AreNew accounts (account :: added) ↔
    accounts.get? account.name = none ∧ AreNew (accounts.extended [account]) added := by
  constructor
  · rintro ⟨hnodup, hnone⟩
    rw [List.map_cons, List.nodup_cons] at hnodup
    refine ⟨hnone _ List.mem_cons_self, hnodup.2, fun other hother => ?_⟩
    have hne : account.name ≠ other.name := fun he =>
      hnodup.1 (he ▸ List.mem_map_of_mem hother)
    rw [get?_extended_singleton, if_neg hne]
    exact hnone other (List.mem_cons_of_mem _ hother)
  · rintro ⟨hnone, hnodup, hrest⟩
    have hother (other : Account) (h : other ∈ added) :
        account.name ≠ other.name ∧ accounts.get? other.name = none := by
      have hget := hrest other h
      rw [get?_extended_singleton] at hget
      split_ifs at hget with hne
      exact ⟨hne, hget⟩
    constructor
    · rw [List.map_cons, List.nodup_cons]
      refine ⟨fun hmem => ?_, hnodup⟩
      obtain ⟨other, hmem, he⟩ := List.mem_map.mp hmem
      exact (hother other hmem).1 he.symm
    · exact List.forall_mem_cons.mpr ⟨hnone, fun other hmem => (hother other hmem).2⟩

/-- The table has grown by exactly these accounts. -/
structure Extends (grown accounts : Accounts) (added : List Account) : Prop where
  get?_eq_some_iff : ∀ name account, grown.get? name = some account ↔
    accounts.get? name = some account ∨ account ∈ added ∧ account.name = name
  size_eq : grown.size = accounts.size + added.length

theorem AreNew.extends (h : AreNew accounts added) :
    (accounts.extended added).Extends accounts added where
  get?_eq_some_iff name account := by
    induction added generalizing accounts with
    | nil => simp
    | cons first added ih =>
      obtain ⟨hnone, hrest⟩ := areNew_cons_iff.mp h
      rw [← List.singleton_append, extended_append, ih hrest, get?_extended_singleton,
        List.singleton_append, List.mem_cons]
      by_cases hname : first.name = name
      · subst hname
        rw [if_pos rfl, hnone, Option.some.injEq]
        constructor
        · rintro (rfl | ⟨hmem, heq⟩)
          · exact .inr ⟨.inl rfl, rfl⟩
          · exact .inr ⟨.inr hmem, heq⟩
        · rintro (⟨⟨⟩⟩ | ⟨rfl | hmem, heq⟩)
          · exact .inl rfl
          · exact .inr ⟨hmem, heq⟩
      · rw [if_neg hname]
        refine or_congr_right (and_congr_left fun heq => ?_)
        have hne : account ≠ first := fun he => hname (he ▸ heq)
        rw [or_iff_right hne]
  size_eq := by
    simp [extended, size, Nat.add_comm]

/-- An account that is in a table stays in it. -/
theorem Extends.get?_eq_some (h : grown.Extends accounts added)
    (hget : accounts.get? name = some account) : grown.get? name = some account :=
  (h.get?_eq_some_iff name account).mpr (.inl hget)

/-- The order in which accounts are added does not matter. -/
theorem Extends.get?_eq_of_perm {grown' : Accounts} {added' : List Account}
    (h : grown.Extends accounts added) (h' : grown'.Extends accounts added')
    (hperm : added'.Perm added) (name : Text) : grown'.get? name = grown.get? name := by
  ext account
  rw [h'.get?_eq_some_iff, h.get?_eq_some_iff, hperm.mem_iff]

end ProxyAuth.Accounts
