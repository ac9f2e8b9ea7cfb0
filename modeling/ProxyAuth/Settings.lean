import ProxyAuth.Policy
import ProxyAuth.Settings.File

/-!
# Settings

The settings are those of the command line over those of the settings file, if one is named, over
the defaults.
-/

namespace ProxyAuth

open Text CommandLine

/-- What the program is started with. -/
structure Settings where
  listen : Text
  entry : Option Text
  file : Option Text
  allowlist : Option Text
  lifetime : Duration
  nonceMaxAge : Duration
  deriving DecidableEq

namespace Settings

/-- Why there are no settings. -/
inductive Fault
  | usage (fault : CommandLine.Fault)
  /-- The settings file cannot be read. -/
  | unreadable (file : Text)
  /-- The settings file is not of the form required. -/
  | malformed (file : Text)
  deriving DecidableEq

/-- The wording of a fault. -/
def Fault.message : Fault → Text
  | .usage fault => fault.message
  | .unreadable file => "reading config file ".toList ++ file
  | .malformed file => "parsing config file ".toList ++ file

/-- Where to listen unless set otherwise. -/
def defaultListen : Text := "127.0.0.1:8080".toList

/-- The hours for which an authenticated client stays known unless set otherwise. -/
def defaultLifetimeHours : Nat := 2

/-- The seconds for which a nonce stays fresh unless set otherwise. -/
def defaultNonceSeconds : Nat := 60

/-- The seconds of a number of hours, or the largest word of 64 bits if that is less. -/
def secondsOfHours (hours : Nat) : Nat := min (hours * 3600) maxNumber

/-- Values of the command line over values of a file. -/
def merge (given : CommandLine.Values) (stored : SettingsFile.Values) : Settings :=
  let text? (name : Name) := (given.get? name).or (stored.text? name)
  let number? (name : Name) := (given.number? name).or (stored.number? name)
  { listen := (text? .listen).getD defaultListen
    entry := text? .entry
    file := text? .file
    allowlist := text? .allowlist
    lifetime :=
      .ofSeconds (secondsOfHours ((number? .lifetimeHours).getD defaultLifetimeHours))
    nonceMaxAge := .ofSeconds ((number? .nonceSeconds).getD defaultNonceSeconds) }

/-- The values of the settings file that the command line names, if it names one. -/
def storedValues (files : Files) (given : CommandLine.Values) :
    Except Fault SettingsFile.Values :=
  match given.get? .settings with
  | none => .ok []
  | some file =>
      match files.readText file with
      | .error _ => .error (.unreadable file)
      | .ok contents =>
          match SettingsFile.parse? contents with
          | none => .error (.malformed file)
          | some values => .ok values

/-- The settings of a command line. -/
def ofArguments (files : Files) (arguments : List Text) : Except Fault Settings :=
  match CommandLine.parse arguments with
  | .error fault => .error (.usage fault)
  | .ok given => (storedValues files given).map (merge given)

/-- The source of the policy that the settings describe. -/
def source (s : Settings) : Policy.Source :=
  { entry? := s.entry
    file? := s.file
    allowlist? := s.allowlist
    nonceMaxAge? := some s.nonceMaxAge
    lifetime? := some s.lifetime }

end Settings

end ProxyAuth
