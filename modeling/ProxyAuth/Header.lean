import ProxyAuth.Text.Numeral
import ProxyAuth.Text.Quoted

/-!
# Authorization headers

A header value is a scheme followed by named parameters.  Parameter names ignore letter case and
occur once; they are kept in lower case and in order.  Every part is bounded before it is stored:
scheme and names are tokens of at most 64 bytes, values have at most 2048 bytes and no control
character but the tab, and a header has at most 30 parameters.

* `Header.ofScheme`, `Header.add`, `Header.set`: the only ways to build a header; each either
  refuses with a `Header.Fault` or keeps all bounds;
* `Header.Stored`: what a call leaves, also one that is refused;
* `Header.get?`: look a parameter up by any spelling of its name;
* `Header.Fault.message`: the wording of each refusal.
-/

namespace ProxyAuth

open Text

/-- A scheme and its parameters, sorted by lower-case name. -/
structure Header where
  scheme : Text
  parameters : List (Text × Text)
  deriving DecidableEq

namespace Header

/-- The bounded parts of a header. -/
inductive Part
  | scheme
  | name
  | value
  deriving DecidableEq

/-- The largest number of bytes of a part. -/
def Part.limit : Part → Nat
  | .scheme => 64
  | .name => 64
  | .value => 2048

/-- How messages call a part. -/
def Part.describe : Part → Text
  | .scheme => "scheme".toList
  | .name => "parameter name".toList
  | .value => "parameter value".toList

/-- The largest number of parameters. -/
def maxParameters : Nat := 30

/-- Why a header or one of its parts is refused. -/
inductive Fault
  /-- Nothing follows the scheme. -/
  | missingParameters
  | badScheme (scheme : Text)
  | badName (name : Text)
  | controlCharacter (name : Text)
  | tooLong (part : Part)
  | tooManyParameters
  | repeatedName (name : Text)
  deriving DecidableEq

/-- The wording of a refusal. -/
def Fault.message : Fault → Text
  | .missingParameters => "scheme not followed by parameters".toList
  | .badScheme s => "bad scheme ".toList ++ quoted s
  | .badName n => "bad parameter name ".toList ++ quoted n
  | .controlCharacter n => "control character in ".toList ++ n
  | .tooLong p => p.describe ++ " longer than ".toList ++ decimal p.limit ++ " bytes".toList
  | .tooManyParameters => "more than ".toList ++ decimal maxParameters ++ " parameters".toList
  | .repeatedName n => n ++ " given twice".toList

/-! ### Legal parts -/

/-- The characters of a token: ASCII letters, digits and fifteen marks. -/
def isTokenChar (c : Char) : Bool := c.isAlphanum || "!#$%&'*+-.^_`|~".toList.contains c

/-- A token is a non-empty text of token characters. -/
def isToken (s : Text) : Bool := s ≠ [] && s.all isTokenChar

/-- A tab may stand inside a quoted value; no other control character may. -/
def isForbidden (c : Char) : Bool := isControl c && c ≠ '\t'

/-- What is wrong with a parameter by itself, if anything. -/
def parameterFault? (name value : Text) : Option Fault :=
  if Part.name.limit < byteLength name then some (.tooLong .name)
  else if !isToken name then some (.badName name)
  else if Part.value.limit < byteLength value then some (.tooLong .value)
  else if value.any isForbidden then some (.controlCharacter name)
  else none

/-! ### Building headers -/

/-- A header without parameters. -/
def ofScheme (scheme : Text) : Except Fault Header :=
  if Part.scheme.limit < byteLength scheme then .error (.tooLong .scheme)
  else if !isToken scheme then .error (.badScheme scheme)
  else .ok ⟨scheme, []⟩

/-- Put a value under a name into a sorted list, in place of the value it had. -/
def put (name value : Text) : List (Text × Text) → List (Text × Text)
  | [] => [(name, value)]
  | (n, v) :: rest =>
      if name = n then (name, value) :: rest
      else if name < n then (name, value) :: (n, v) :: rest
      else (n, v) :: put name value rest

/-- Whether the scheme is digest authentication. -/
def isDigest (h : Header) : Bool := sameIgnoringCase h.scheme "digest".toList

/-- The value of a parameter, by any spelling of its name. -/
def get? (h : Header) (name : Text) : Option Text := h.parameters.lookup (lower name)

/-- The value of a parameter, or the empty text. -/
def getD (h : Header) (name : Text) : Text := (h.get? name).getD []

/-- The header after a call, and the fault of the call if it was refused. -/
structure Stored where
  header : Header
  fault : Option Fault
  deriving DecidableEq

/-- The header of an accepted call, or the fault of a refused one. -/
def Stored.result (s : Stored) : Except Fault Header :=
  match s.fault with
  | none => .ok s.header
  | some fault => .error fault

/-- Store a parameter; a name that is present is replaced or refused. -/
def store (replace : Bool) (h : Header) (name value : Text) : Stored :=
  match parameterFault? name value with
  | some fault => ⟨h, some fault⟩
  | none =>
      let present := (h.get? name).isSome
      if present && !replace then ⟨h, some (.repeatedName (lower name))⟩
      else if !present && maxParameters ≤ h.parameters.length then ⟨h, some .tooManyParameters⟩
      else ⟨{ h with parameters := put (lower name) value h.parameters }, none⟩

/-- Add a parameter; a name already present is refused. -/
def add (h : Header) (name value : Text) : Stored := store false h name value

/-- Add or replace a parameter. -/
def set (h : Header) (name value : Text) : Stored := store true h name value

theorem Stored.result_eq_ok_iff {s : Stored} {h : Header} :
    s.result = .ok h ↔ s.fault = none ∧ s.header = h := by
  unfold result
  cases s.fault <;> simp

@[simp] theorem put_nil (name value : Text) : put name value [] = [(name, value)] := rfl

/-- The value just put is found. -/
@[simp] theorem lookup_put_self (name value : Text) (ps : List (Text × Text)) :
    (put name value ps).lookup name = some value := by
  induction ps with
  | nil => simp [put]
  | cons p rest ih =>
    obtain ⟨n, v⟩ := p
    by_cases h : name = n
    · simp [put, h]
    · have hb : (name == n) = false := by simpa using h
      by_cases hl : name < n <;> simp [put, h, hl, List.lookup_cons, hb, ih]

/-- No other name is touched. -/
theorem lookup_put_of_ne {name other : Text} (value : Text) (ps : List (Text × Text))
    (h : other ≠ name) : (put name value ps).lookup other = ps.lookup other := by
  have hb : (other == name) = false := by simpa using h
  induction ps with
  | nil => simp [put, List.lookup_cons, hb]
  | cons p rest ih =>
    obtain ⟨n, v⟩ := p
    by_cases hn : name = n
    · subst hn; simp [put, List.lookup_cons, hb]
    · by_cases hl : name < n <;> simp [put, hn, hl, List.lookup_cons, hb, ih]

end Header

end ProxyAuth
