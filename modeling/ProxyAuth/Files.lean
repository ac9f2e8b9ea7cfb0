import ProxyAuth.Utf8

/-!
# Files

The files that a setup may name, seen as a function from names to contents.  Reading a file as text
fails if there is none of that name or if its contents are not UTF-8.
-/

namespace ProxyAuth

/-- The contents of each file, none for a name without file. -/
abbrev Files := Text → Option Bytes

/-- Why a file cannot be read as text. -/
inductive FileFault
  | missing
  | notText
  deriving DecidableEq

namespace FileFault

/-- The wording of a file fault. -/
def message : FileFault → Text
  | .missing => "No such file or directory (os error 2)".toList
  | .notText => "stream did not contain valid UTF-8".toList

end FileFault

namespace Files

/-- No files at all. -/
def none : Files := fun _ => Option.none

/-- The contents of a file as text. -/
def readText (files : Files) (name : Text) : Except FileFault Text :=
  match files name with
  | .none => .error .missing
  | .some contents =>
      match Utf8.decode? contents with
      | .none => .error .notText
      | .some text => .ok text

end Files

end ProxyAuth
