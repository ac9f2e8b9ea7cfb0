import ProxyAuth.Text

/-!
# The MD5 message digest

A message is padded to blocks of sixteen little-endian words; each block passes through 64 steps
in four rounds, which differ in their mixing function, word order and rotations.  The digest is
written as 32 hexadecimal digits in lower case.
-/

namespace ProxyAuth.MD5

/-- The four chaining words. -/
structure State where
  a : UInt32
  b : UInt32
  c : UInt32
  d : UInt32
  deriving DecidableEq

/-- The chaining words before the first block. -/
def State.initial : State := ⟨0x67452301, 0xefcdab89, 0x98badcfe, 0x10325476⟩

/-- One constant for each step: the integer part of 2³² times the absolute sine of 1, …, 64. -/
def sines : List UInt32 :=
  [0xd76aa478, 0xe8c7b756, 0x242070db, 0xc1bdceee, 0xf57c0faf, 0x4787c62a,
    0xa8304613, 0xfd469501, 0x698098d8, 0x8b44f7af, 0xffff5bb1, 0x895cd7be,
    0x6b901122, 0xfd987193, 0xa679438e, 0x49b40821, 0xf61e2562, 0xc040b340,
    0x265e5a51, 0xe9b6c7aa, 0xd62f105d, 0x02441453, 0xd8a1e681, 0xe7d3fbc8,
    0x21e1cde6, 0xc33707d6, 0xf4d50d87, 0x455a14ed, 0xa9e3e905, 0xfcefa3f8,
    0x676f02d9, 0x8d2a4c8a, 0xfffa3942, 0x8771f681, 0x6d9d6122, 0xfde5380c,
    0xa4beea44, 0x4bdecfa9, 0xf6bb4b60, 0xbebfbc70, 0x289b7ec6, 0xeaa127fa,
    0xd4ef3085, 0x04881d05, 0xd9d4d039, 0xe6db99e5, 0x1fa27cf8, 0xc4ac5665,
    0xf4292244, 0x432aff97, 0xab9423a7, 0xfc93a039, 0x655b59c3, 0x8f0ccc92,
    0xffeff47d, 0x85845dd1, 0x6fa87e4f, 0xfe2ce6e0, 0xa3014314, 0x4e0811a1,
    0xf7537e82, 0xbd3af235, 0x2ad7d2bb, 0xeb86d391]

/-- The rotations of a round, used in turn. -/
def rotations : Nat → List UInt32
  | 0 => [7, 12, 17, 22]
  | 1 => [5, 9, 14, 20]
  | 2 => [4, 11, 16, 23]
  | _ => [6, 10, 15, 21]

/-- The mixing function of a round. -/
def mix : Nat → UInt32 → UInt32 → UInt32 → UInt32
  | 0, b, c, d => (b &&& c) ||| (~~~b &&& d)
  | 1, b, c, d => (d &&& b) ||| (~~~d &&& c)
  | 2, b, c, d => b ^^^ c ^^^ d
  | _, b, c, d => c ^^^ (b ||| ~~~d)

/-- The word of the block that step `i` takes. -/
def wordIndex (i : Nat) : Nat :=
  match i / 16 with
  | 0 => i
  | 1 => (5 * i + 1) % 16
  | 2 => (3 * i + 5) % 16
  | _ => 7 * i % 16

/-- Rotation to the left. -/
def rotateLeft (x r : UInt32) : UInt32 := (x <<< r) ||| (x >>> (32 - r))

/-- Step `i` with its constant. -/
def State.step (block : List UInt32) (s : State) (i : Nat) (sine : UInt32) : State :=
  let sum := s.a + mix (i / 16) s.b s.c s.d + sine + block.getD (wordIndex i) 0
  ⟨s.d, s.b + rotateLeft sum ((rotations (i / 16)).getD (i % 4) 0), s.b, s.c⟩

/-- Pass one block through the 64 steps. -/
def State.absorb (s : State) (block : List UInt32) : State :=
  let t := sines.zipIdx.foldl (fun t (sine, i) => t.step block i sine) s
  ⟨s.a + t.a, s.b + t.b, s.c + t.c, s.d + t.d⟩

/-- The first `n` blocks of a list of words, one after the other. -/
def State.absorbBlocks (s : State) : Nat → List UInt32 → State
  | 0, _ => s
  | n + 1, words => (s.absorb (words.take 16)).absorbBlocks n (words.drop 16)

/-- The lowest `n` bytes of a number, least significant first. -/
def littleEndian : Nat → Nat → Bytes
  | 0, _ => []
  | n + 1, value => .ofNat (value % 256) :: littleEndian n (value / 256)

/-- The message followed by a one bit, zeros up to eight bytes before the end of a block, and its
length in bits. -/
def pad (message : Bytes) : Bytes :=
  message ++ [0x80] ++ List.replicate ((119 - message.length % 64) % 64) 0 ++
    littleEndian 8 (8 * message.length)

/-- Four bytes make a word, least significant first. -/
def toWords : Bytes → List UInt32
  | w :: x :: y :: z :: rest =>
      .ofNat (w.toNat + 0x100 * x.toNat + 0x10000 * y.toNat + 0x1000000 * z.toNat) :: toWords rest
  | _ => []

/-- The sixteen bytes of the digest. -/
def digest (message : Bytes) : Bytes :=
  let words := toWords (pad message)
  let s := State.initial.absorbBlocks (words.length / 16) words
  [s.a, s.b, s.c, s.d].flatMap fun word => littleEndian 4 word.toNat

/-- A byte as two hexadecimal digits in lower case. -/
def hexByte (byte : UInt8) : Text :=
  [Nat.digitChar (byte.toNat / 16), Nat.digitChar (byte.toNat % 16)]

/-- The digest as 32 hexadecimal digits in lower case. -/
def hex (message : Bytes) : Text := (digest message).flatMap hexByte

end ProxyAuth.MD5
