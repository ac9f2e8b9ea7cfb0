import ProxyAuth.Text

/-!
# Network addresses

An address is a word of 32 or 128 bits.  An address of the longer family that only wraps one of
the shorter family stands for the latter: `Address.canonical` unwraps it, and clients and subnets
are compared in canonical form.
-/

namespace ProxyAuth

/-- An address of either family. -/
inductive Address
  | v4 (bits : BitVec 32)
  | v6 (bits : BitVec 128)
  deriving DecidableEq

namespace Address

/-- The number of bits of the family. -/
def width : Address → Nat
  | .v4 _ => 32
  | .v6 _ => 128

/-- The word of an address as a number. -/
def toNat : Address → Nat
  | .v4 bits => bits.toNat
  | .v6 bits => bits.toNat

/-- Whether a long address wraps a short one: eighty zero bits, sixteen one bits, the address. -/
def isMapped (bits : BitVec 128) : Bool := bits.toNat / 0x100000000 = 0xffff

/-- The short address that a long one wraps. -/
def unwrap (bits : BitVec 128) : BitVec 32 := bits.setWidth 32

/-- The long address that wraps a short one. -/
def mapped (bits : BitVec 32) : BitVec 128 := 0xffff#96 ++ bits

/-- A wrapped short address is unwrapped, every other address kept. -/
def canonical : Address → Address
  | .v4 bits => .v4 bits
  | .v6 bits => if isMapped bits then .v4 (unwrap bits) else .v6 bits

/-- The parts of a word in base `base`, `n` of them, most significant first. -/
def parts (base : Nat) : Nat → Nat → List Nat
  | 0, _ => []
  | n + 1, word => parts base n (word / base) ++ [word % base]

/-- The word that consists of parts in base `base`, most significant first. -/
def ofParts (base : Nat) (ps : List Nat) : Nat := ps.foldl (fun word p => word * base + p) 0

/-- The four octets of a short address. -/
def octets (bits : BitVec 32) : List Nat := parts 256 4 bits.toNat

/-- The eight groups of a long address. -/
def groups (bits : BitVec 128) : List Nat := parts 65536 8 bits.toNat

@[simp] theorem canonical_v4 (bits : BitVec 32) : canonical (.v4 bits) = .v4 bits := rfl

/-- Unwrapping once is enough. -/
@[simp] theorem canonical_canonical (a : Address) : a.canonical.canonical = a.canonical := by
  cases a with
  | v4 bits => rfl
  | v6 bits => by_cases h : isMapped bits = true <;> simp [canonical, h]

@[simp] theorem length_parts (base n word : Nat) : (parts base n word).length = n := by
  induction n generalizing word with
  | zero => rfl
  | succ n ih => simp [parts, ih]

end Address

end ProxyAuth
