import ProxyAuth.Accounts
import ProxyAuth.Event
import ProxyAuth.Text.Blank
import ProxyAuth.Text.Split

/-!
# Account files

A file holds one account entry per line; blank lines and lines that start with `#` are skipped, and
blanks around an entry do not count.  Loading stops at the first bad line and keeps the accounts of
the lines before it.
-/

namespace ProxyAuth.Accounts

open Text

/-- The state of loading accounts: the table so far, what has been reported, and the fault that
ended it, if any. -/
structure Loading where
  accounts : Accounts
  events : List Event
  fault : Option SetupFault
  deriving DecidableEq

/-- Loading before the first entry. -/
def Loading.start (accounts : Accounts) : Loading := ⟨accounts, [], none⟩

/-- Load one more entry, with its fault put into context by `locate`.  Nothing happens after a
fault. -/
def Loading.entry (locate : SetupFault → SetupFault) (l : Loading) (entry : Text) : Loading :=
  if l.fault.isSome then l
  else match Account.parse entry with
    | .error fault => { l with fault := some (locate fault) }
    | .ok none => l
    | .ok (some account) =>
        let events := l.events ++ [.accountLoaded account.name account.port]
        match l.accounts.insert account with
        | .error fault => { l with events, fault := some (locate fault) }
        | .ok accounts => { l with accounts, events }

/-- Whether a line without blanks around it holds an entry. -/
def isRelevant (line : Text) : Bool := line ≠ [] && line.head? ≠ some '#'

/-- The entries of a file with the numbers of their lines, counted from one. -/
def fileEntries (contents : Text) : List (Nat × Text) :=
  (((lines contents).map trim).zipIdx 1).filterMap fun (line, number) =>
    if isRelevant line then some (number, line) else none

/-- Load the entries of a file's contents. -/
def Loading.contents (file : Text) (l : Loading) (contents : Text) : Loading :=
  (fileEntries contents).foldl (fun l (number, entry) => l.entry (.badLine file number) entry) l

/-- Load a file. -/
def Loading.file (files : Files) (name : Text) (l : Loading) : Loading :=
  if l.fault.isSome then l
  else match files.readText name with
    | .error fault => { l with fault := some (.unreadableFile name fault) }
    | .ok contents => l.contents name contents

/-- Add the accounts of a file to a table. -/
def load (accounts : Accounts) (files : Files) (name : Text) : Loading :=
  (Loading.start accounts).file files name

/-- Nothing happens after a fault. -/
theorem Loading.entry_of_fault {l : Loading} (h : l.fault.isSome = true)
    (locate : SetupFault → SetupFault) (entry : Text) : l.entry locate entry = l := by
  simp [Loading.entry, h]

end ProxyAuth.Accounts
