import ProxyAuth.Files
import ProxyAuth.Text.Numeral
import ProxyAuth.Text.Quoted

/-!
# Faults of a setup

Accounts and allowlists are checked once, before the first request; every fault ends the setup.
A fault in a file names the file and the line and keeps the fault of the line itself.
-/

namespace ProxyAuth

open Text

/-- What is wrong with the accounts or the allowlist. -/
inductive SetupFault
  /-- Not of the form `name:secret[:port]`. -/
  | malformedAccount (entry : Text)
  /-- The name or the secret is empty. -/
  | emptyField (entry : Text)
  /-- The port is no number from 1 to 65535. -/
  | badPort (entry : Text)
  | repeatedAccount (name : Text)
  /-- Not an address, or a second slash. -/
  | badAddress (entry : Text)
  /-- The length behind the slash is no number, or more than the width of the address. -/
  | badLength (entry : Text) (width : Nat)
  | unreadableFile (file : Text) (fault : FileFault)
  | badLine (file : Text) (line : Nat) (fault : SetupFault)
  deriving DecidableEq

namespace SetupFault

/-- The wording of a fault. -/
def message : SetupFault → Text
  | .malformedAccount entry =>
      "user password ".toList ++ quoted entry ++
        " syntax wrong, should be username:password[:port]".toList
  | .emptyField entry =>
      "user password ".toList ++ quoted entry ++
        " should not contain empty user name or password".toList
  | .badPort entry => "user password ".toList ++ quoted entry ++ " has an invalid port".toList
  | .repeatedAccount name => "duplicate user: ".toList ++ name
  | .badAddress entry =>
      "allowed client ".toList ++ quoted entry ++ ": ip address not valid".toList
  | .badLength entry width =>
      "allowed client ".toList ++ quoted entry ++ ": mask bits must be a number <= ".toList ++
        decimal width
  | .unreadableFile file fault =>
      "error opening user password file ".toList ++ file ++ ": ".toList ++ fault.message
  | .badLine file line fault =>
      file ++ ':' :: decimal line ++ ": ".toList ++ fault.message

/-- The wording of the fault behind a fault, where there is one. -/
def cause? : SetupFault → Option Text
  | .unreadableFile _ fault => some fault.message
  | .badLine _ _ fault => some fault.message
  | _ => none

end SetupFault

end ProxyAuth
