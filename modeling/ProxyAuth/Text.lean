/-!
# Text

Headers, account files and command lines are handled as lists of characters, so that every rule
about them is a rule about lists.  Limits count the bytes of the UTF-8 form (`byteLength`), and
letter case is ignored for ASCII letters only (`lower`, `sameIgnoringCase`).
-/

namespace ProxyAuth

/-- A text is the list of its characters. -/
abbrev Text := List Char

/-- What travels over a connection or lies in a file. -/
abbrev Bytes := List UInt8

namespace Text

/-- ASCII letters in lower case, every other character as it is. -/
def lower (s : Text) : Text := s.map Char.toLower

/-- Equality up to the case of ASCII letters. -/
def sameIgnoringCase (s t : Text) : Bool := lower s == lower t

/-- The number of bytes of the UTF-8 form. -/
def byteLength : Text → Nat
  | [] => 0
  | c :: rest => c.utf8Size + byteLength rest

/-- Texts with colons between them; without texts there is nothing. -/
def joined (texts : List Text) : Text := List.intercalate [':'] texts

/-- The control characters: U+0000 to U+001F and U+007F to U+009F. -/
def isControl (c : Char) : Bool :=
  c.toNat ≤ 0x1f || (0x7f ≤ c.toNat && c.toNat ≤ 0x9f)

@[simp] theorem lower_nil : lower [] = [] := rfl

@[simp] theorem lower_append (s t : Text) : lower (s ++ t) = lower s ++ lower t :=
  List.map_append

@[simp] theorem joined_nil : joined [] = [] := rfl

@[simp] theorem joined_singleton (s : Text) : joined [s] = s := by
  simp [joined, List.intercalate]

@[simp] theorem joined_cons_cons (s t : Text) (rest : List Text) :
    joined (s :: t :: rest) = s ++ ':' :: joined (t :: rest) := by
  simp [joined, List.intercalate]

@[simp] theorem length_lower (s : Text) : (lower s).length = s.length :=
  List.length_map Char.toLower

@[simp] theorem byteLength_nil : byteLength [] = 0 := rfl

@[simp] theorem byteLength_cons (c : Char) (s : Text) :
    byteLength (c :: s) = c.utf8Size + byteLength s := rfl

@[simp] theorem byteLength_append (s t : Text) :
    byteLength (s ++ t) = byteLength s + byteLength t := by
  induction s with
  | nil => simp
  | cons c s ih => simp [ih, Nat.add_assoc]

theorem sameIgnoringCase_iff {s t : Text} : sameIgnoringCase s t = true ↔ lower s = lower t := by
  simp [sameIgnoringCase]

end Text

end ProxyAuth
