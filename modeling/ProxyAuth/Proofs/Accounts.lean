import Mathlib.Tactic
import ProxyAuth.Accounts
import ProxyAuth.Proofs.Account.Grammar

/-!
# Accounts in a table

An account is found under its own name.  Entries are cut at their colons, so no name that is loaded
has one; this keeps the texts apart that are hashed for two names.

* `Account.not_mem_name_of_parse`: the account of an entry;
* `Accounts.ColonFree`: a table without colons in its names.
-/

namespace ProxyAuth

open Text

/-- The name in an entry ends at its first colon. -/
theorem Account.not_mem_name_of_parse {entry : Text} {account : Account}
    (h : Account.parse entry = .ok (some account)) : ':' ∉ account.name := by
  cases parse_eq_ok_some_iff.mp h with
  | intro hname hsecret hport => exact hname.not_mem_colon

namespace Accounts

/-- An account is found under its own name. -/
theorem name_of_get? {accounts : Accounts} {name : Text} {account : Account}
    (h : accounts.get? name = some account) : account.name = name := by
  simpa using List.find?_some h

theorem mem_of_get? {accounts : Accounts} {name : Text} {account : Account}
    (h : accounts.get? name = some account) : account ∈ accounts.toList :=
  List.mem_of_find?_eq_some h

/-- No name has a colon. -/
def ColonFree (accounts : Accounts) : Prop := ∀ account ∈ accounts.toList, ':' ∉ account.name

instance (accounts : Accounts) : Decidable accounts.ColonFree :=
  inferInstanceAs (Decidable (∀ _ ∈ _, _))

end Accounts

end ProxyAuth
