import ProxyAuth.Header
import ProxyAuth.Text.Split

/-!
# Reading headers

A header value is a scheme, a space, and parts between commas.  A comma inside a quoted string
separates nothing, and inside quotes a backslash takes the next character literally.  A part
without an equals sign is skipped; of two values for one name the later counts.  The first refused
parameter ends the reading.
-/

namespace ProxyAuth.Header

open Text

/-- Where a reader stands with respect to quotes. -/
inductive Quoting
  | outside
  | inside
  /-- Just behind a backslash inside quotes. -/
  | escaped
  deriving DecidableEq

/-- Where the reader stands after one more character. -/
def Quoting.after : Quoting → Char → Quoting
  | .outside, c => if c = '"' then .inside else .outside
  | .inside, c => if c = '"' then .outside else if c = '\\' then .escaped else .inside
  | .escaped, _ => .inside

/-- Cut at the commas outside quotes. -/
def splitAtCommas : Quoting → Text → List Text
  | _, [] => [[]]
  | q, c :: rest =>
      if q = .outside ∧ c = ',' then [] :: splitAtCommas .outside rest
      else consFirst c (splitAtCommas (q.after c) rest)

/-- Remove the backslashes of a quoted string; one at the very end stands for nothing. -/
def unescape : Text → Text
  | [] => []
  | ['\\'] => []
  | '\\' :: c :: rest => c :: unescape rest
  | c :: rest => c :: unescape rest

/-- The value that a spelling denotes: between two quotes the unescaped inside, else the spelling
itself. -/
def unquote (spelled : Text) : Text :=
  match spelled with
  | '"' :: rest => if rest.getLast? = some '"' then unescape rest.dropLast else spelled
  | _ => spelled

/-- The assignments of a parameter list, in order of appearance. -/
def assignments (s : Text) : List (Text × Text) :=
  ((splitAtCommas .outside s).map trim).filterMap fun part =>
    (splitFirst? ['='] part).map fun (name, spelled) => (trim name, unquote (trim spelled))

/-- Store assignments one after the other, later ones over earlier ones. -/
def setAll (h : Header) (parameters : List (Text × Text)) : Except Fault Header :=
  parameters.foldlM (fun h (name, value) => (h.set name value).result) h

/-- Read a header value. -/
def parse (s : Text) : Except Fault Header :=
  match splitFirst? [' '] (trimStart s) with
  | none => .error .missingParameters
  | some (scheme, rest) => (ofScheme (trim scheme)).bind (·.setAll (assignments rest))

@[simp] theorem splitAtCommas_nil (q : Quoting) : splitAtCommas q [] = [[]] := by
  cases q <;> rfl

@[simp] theorem unescape_nil : unescape [] = [] := rfl

end ProxyAuth.Header
