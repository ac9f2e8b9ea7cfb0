import ProxyAuth.Text.Numeral
import ProxyAuth.Text.Split

/-!
# The command line

Seven options, each with one value, given as `--name value` or as `--name=value` and at most once.
An argument that starts with a minus sign is never the separate value of an option.  Arguments are
taken from left to right.  A value behind an equals sign is checked at once, a separate value when
the next option, or the end, is reached; so of several faults the first one met decides.
-/

namespace ProxyAuth.CommandLine

open Text

/-- The options. -/
inductive Name
  | listen
  | entry
  | file
  | allowlist
  | lifetimeHours
  | nonceSeconds
  | settings
  deriving DecidableEq

/-- What a value has to be. -/
inductive Kind
  | text
  /-- A name of a file, which is not empty. -/
  | file
  /-- A number that fits a word of 64 bits. -/
  | number
  deriving DecidableEq

/-- All options. -/
def Name.all : List Name :=
  [.listen, .entry, .file, .allowlist, .lifetimeHours, .nonceSeconds, .settings]

/-- The spelling of an option, without the two minus signs. -/
def Name.spelling : Name → Text
  | .listen => "listen".toList
  | .entry => "user-passwd".toList
  | .file => "user-passwd-file".toList
  | .allowlist => "allowed-client".toList
  | .lifetimeHours => "auth-timeout-hours".toList
  | .nonceSeconds => "nonce-max-age-secs".toList
  | .settings => "config".toList

/-- The kind of an option's value. -/
def Name.kind : Name → Kind
  | .file | .settings => .file
  | .lifetimeHours | .nonceSeconds => .number
  | _ => .text

/-- Why a command line is refused. -/
inductive Fault
  | unknownArgument
  /-- A value is missing, or empty where a file is named. -/
  | badValue
  | givenTwice
  /-- Not a number where one is needed. -/
  | notANumber
  deriving DecidableEq

/-- The wording of a refusal. -/
def Fault.message : Fault → Text
  | .unknownArgument => "unexpected argument".toList
  | .badValue => "a value is missing or empty".toList
  | .givenTwice => "an option is given twice".toList
  | .notANumber => "a value is not a number".toList

/-- The largest number that an option takes. -/
def maxNumber : Nat := 0xffffffffffffffff

/-- The values given so far, the latest first. -/
abbrev Values := List (Name × Text)

/-- The value of an option. -/
def Values.get? (values : Values) (name : Name) : Option Text := values.lookup name

/-- The value of an option as a number. -/
def Values.number? (values : Values) (name : Name) : Option Nat :=
  (values.get? name).bind (boundedValue? maxNumber)

/-- Check a value. -/
def Kind.fault? : Kind → Text → Option Fault
  | .text, _ => none
  | .file, value => if value = [] then some .badValue else none
  | .number, value => if (boundedValue? maxNumber value).isNone then some .notANumber else none

/-- Settle an option whose value, if any, has been found. -/
def settle (values : Values) (name : Name) : Option Text → Except Fault Values
  | none => .error .badValue
  | some value =>
      if (values.get? name).isSome then .error .givenTwice
      else match name.kind.fault? value with
        | some fault => .error fault
        | none => .ok ((name, value) :: values)

/-- An option without equals sign that has not been settled, with its separate value if that has
been met. -/
abbrev Pending := Option (Name × Option Text)

/-- Settle the pending option, if there is one. -/
def settlePending (values : Values) : Pending → Except Fault Values
  | none => .ok values
  | some (name, value) => settle values name value

/-- The option that an argument names, with the value behind its equals sign. -/
def option? (argument : Text) : Option (Name × Option Text) :=
  match argument with
  | '-' :: '-' :: body =>
      let (spelling, value) := match splitFirst? ['='] body with
        | some (spelling, value) => (spelling, some value)
        | none => (body, none)
      (Name.all.find? (·.spelling = spelling)).map fun name => (name, value)
  | _ => none

/-- Whether an argument can be the separate value of an option: it has no minus sign in front,
or is nothing but a minus sign. -/
def isPlain : Text → Bool
  | '-' :: _ :: _ => false
  | _ => true

/-- Take arguments one after the other.  Behind `--` every argument is positional, and no option
takes one. -/
def take (values : Values) (pending : Pending) : List Text → Except Fault Values
  | [] => settlePending values pending
  | argument :: rest =>
      match pending, isPlain argument with
      | some (name, none), true => take values (some (name, some argument)) rest
      | _, _ =>
          if argument = "--".toList then
            if rest = [] then settlePending values pending else .error .unknownArgument
          else match option? argument with
            | none => .error .unknownArgument
            | some (name, none) =>
                (settlePending values pending).bind (take · (some (name, none)) rest)
            | some (name, some value) =>
                ((settlePending values pending).bind (settle · name (some value))).bind
                  (take · none rest)

/-- The values of a command line. -/
def parse (arguments : List Text) : Except Fault Values := take [] none arguments

end ProxyAuth.CommandLine
