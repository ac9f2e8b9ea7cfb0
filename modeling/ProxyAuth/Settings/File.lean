import ProxyAuth.Settings.CommandLine

/-!
# The settings file

A JSON text that gives the options of the command line, the name of the settings file itself
excepted: an object whose keys are the spellings of options with underscores, each at most once, or
an array of at most as many values in the order of the options.  A value is a string, a natural
number that fits a word of 64 bits, or null, which gives nothing.  The reader is strict: no
comments, no trailing commas, nothing but blanks behind the value.
-/

namespace ProxyAuth.SettingsFile

open Text CommandLine

/-- A value of an option. -/
inductive Value
  | null
  | text (value : Text)
  | number (value : Nat)
  deriving DecidableEq

/-- The values of a file by option. -/
abbrev Values := List (Name × Value)

/-- The value of an option that is a text. -/
def Values.text? (values : Values) (name : Name) : Option Text :=
  match values.lookup name with
  | some (.text value) => some value
  | _ => none

/-- The value of an option that is a number. -/
def Values.number? (values : Values) (name : Name) : Option Nat :=
  match values.lookup name with
  | some (.number value) => some value
  | _ => none

/-! ### Tokens -/

/-- The blanks between tokens. -/
def isSpace (c : Char) : Bool := c = ' ' || c = '\t' || c = '\n' || c = '\r'

/-- The text behind leading blanks. -/
def skip (s : Text) : Text := s.dropWhile isSpace

/-- The character that a letter behind a backslash stands for. -/
def escape? : Char → Option Char
  | '"' => some '"'
  | '\\' => some '\\'
  | '/' => some '/'
  | 'b' => some '\x08'
  | 'f' => some '\x0c'
  | 'n' => some '\n'
  | 'r' => some '\r'
  | 't' => some '\t'
  | _ => none

/-- Whether a number is the first half of a character beyond the basic plane. -/
def isHighHalf (n : Nat) : Bool := 0xd800 ≤ n && n ≤ 0xdbff

/-- Whether a number is the second half of a character beyond the basic plane. -/
def isLowHalf (n : Nat) : Bool := 0xdc00 ≤ n && n ≤ 0xdfff

/-- The character of two halves. -/
def joinHalves (high low : Nat) : Char :=
  .ofNat ((high - 0xd800) * 0x400 + (low - 0xdc00) + 0x10000)

/-- Put a character in front of a string that has been read. -/
def prepend (c : Char) (read : Option (Text × Text)) : Option (Text × Text) :=
  read.map fun (inside, rest) => (c :: inside, rest)

/-- The inside of a string behind its opening quote, and what follows its closing quote. -/
def string? : Text → Option (Text × Text)
  | '"' :: rest => some ([], rest)
  | '\\' :: 'u' :: a :: b :: c :: d :: '\\' :: 'u' :: e :: f :: g :: h :: rest => do
      let n ← value? 16 [a, b, c, d]
      if isHighHalf n then
        let m ← value? 16 [e, f, g, h]
        if isLowHalf m then prepend (joinHalves n m) (string? rest) else none
      else if isLowHalf n then none
      else prepend (.ofNat n) (string? ('\\' :: 'u' :: e :: f :: g :: h :: rest))
  | '\\' :: 'u' :: a :: b :: c :: d :: rest => do
      let n ← value? 16 [a, b, c, d]
      if isHighHalf n || isLowHalf n then none else prepend (.ofNat n) (string? rest)
  | '\\' :: c :: rest => do prepend (← escape? c) (string? rest)
  | c :: rest => if c = '\\' ∨ c.toNat < 0x20 then none else prepend c (string? rest)
  | [] => none

/-- A natural number without leading zeros, and what follows it. -/
def number? (s : Text) : Option (Nat × Text) :=
  let digits := s.takeWhile Char.isDigit
  let rest := s.drop digits.length
  match digits with
  | '0' :: _ :: _ => none
  | digits => (value? 10 digits).map (·, rest)

/-- A value, and what follows it. -/
def valueAt? (s : Text) : Option (Value × Text) :=
  match s with
  | '"' :: rest => (string? rest).map fun (inside, rest) => (.text inside, rest)
  | 'n' :: 'u' :: 'l' :: 'l' :: rest => some (.null, rest)
  | s => (number? s).map fun (n, rest) => (.number n, rest)

/-- A key, a colon and a value, and what follows them. -/
def memberAt? (s : Text) : Option ((Text × Value) × Text) :=
  match s with
  | '"' :: rest => do
      let (key, rest) ← string? rest
      match skip rest with
      | ':' :: rest =>
          let (value, rest) ← valueAt? (skip rest)
          some ((key, value), rest)
      | _ => none
  | _ => none

/-- Items between commas up to the closing mark, and what follows it; at least one item.  The
argument bounds the number of items. -/
def itemsAt? {α : Type} (item? : Text → Option (α × Text)) (closing : Char) :
    Nat → Text → Option (List α × Text)
  | 0, _ => none
  | n + 1, s => do
      let (item, rest) ← item? (skip s)
      match skip rest with
      | ',' :: rest =>
          let (items, rest) ← itemsAt? item? closing n rest
          some (item :: items, rest)
      | c :: rest => if c = closing then some ([item], rest) else none
      | [] => none

/-- The items of a list behind its opening mark, if nothing but blanks follows the closing one. -/
def list? {α : Type} (item? : Text → Option (α × Text)) (closing : Char) (s : Text) :
    Option (List α) :=
  let read := if (skip s).head? = some closing then some ([], (skip s).drop 1)
    else itemsAt? item? closing s.length s
  match read with
  | some (items, rest) => if skip rest = [] then some items else none
  | none => none

/-! ### Options -/

/-- The options that a file may give, in the order of an array. -/
def names : List Name := [.listen, .entry, .file, .allowlist, .lifetimeHours, .nonceSeconds]

/-- The key of an option. -/
def key (name : Name) : Text := name.spelling.map fun c => if c = '-' then '_' else c

/-- Whether a value suits an option. -/
def suits : Kind → Value → Bool
  | _, .null => true
  | .number, .number n => n ≤ maxNumber
  | .text, .text _ | .file, .text _ => true
  | _, _ => false

/-- Options with the values given for them, if every value suits. -/
def checked? (values : Values) : Option Values :=
  if values.all fun (name, value) => suits name.kind value then some values else none

/-- The option of a member. -/
def named? (member : Text × Value) : Option (Name × Value) :=
  (names.find? (key · = member.1)).map (·, member.2)

/-- The options of an object. -/
def ofMembers? (members : List (Text × Value)) : Option Values :=
  if (members.map (·.1)).Nodup then (members.mapM named?).bind checked? else none

/-- The options of an array. -/
def ofItems? (items : List Value) : Option Values :=
  if items.length ≤ names.length then checked? (names.zip items) else none

/-- Read the text of a settings file. -/
def parse? (s : Text) : Option Values :=
  match skip s with
  | '\x7b' :: rest => (list? memberAt? '\x7d' rest).bind ofMembers?
  | '[' :: rest => (list? valueAt? ']' rest).bind ofItems?
  | _ => none

end ProxyAuth.SettingsFile
