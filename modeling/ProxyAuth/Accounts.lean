import ProxyAuth.Account

/-!
# Account tables

Accounts by name.  A name occurs once: `Accounts.insert` refuses a second account of the same name
and never changes or removes one that is there.
-/

namespace ProxyAuth

/-- A table of accounts, the latest first. -/
structure Accounts where
  toList : List Account
  deriving DecidableEq

namespace Accounts

/-- The empty table. -/
def empty : Accounts := ⟨[]⟩

/-- The account of a name. -/
def get? (accounts : Accounts) (name : Text) : Option Account :=
  accounts.toList.find? (·.name = name)

/-- The number of accounts. -/
def size (accounts : Accounts) : Nat := accounts.toList.length

/-- Whether there is no account. -/
def isEmpty (accounts : Accounts) : Bool := accounts.toList.isEmpty

/-- Add an account of a new name. -/
def insert (accounts : Accounts) (a : Account) : Except SetupFault Accounts :=
  if (accounts.get? a.name).isSome then .error (.repeatedAccount a.name)
  else .ok ⟨a :: accounts.toList⟩

@[simp] theorem get?_empty (name : Text) : empty.get? name = none := rfl

@[simp] theorem size_empty : empty.size = 0 := rfl

/-- What a successful insertion does to every look-up. -/
theorem get?_insert {accounts grown : Accounts} {a : Account} (h : accounts.insert a = .ok grown)
    (name : Text) :
    grown.get? name = if a.name = name then some a else accounts.get? name := by
  unfold insert at h
  split at h
  · cases h
  · obtain rfl := Except.ok.inj h
    by_cases hn : a.name = name <;> simp [get?, hn]

end Accounts

end ProxyAuth
