import AgeFile.Bytes.Fixed
import AgeFile.Bytes.Pieces

/-!
# SHA-256

The hash function of FIPS 180-4 on byte strings: the message is padded to whole blocks, and each
block is mixed into a state of eight words. The digest is the final state.
-/

namespace AgeFile.Sha256

/-- The number of bytes of a block. -/
abbrev blockSize : Nat := 64

/-- The number of bytes of a digest. -/
abbrev digestSize : Nat := 32

/-- The chaining state of eight words. -/
structure State where
  a : UInt32
  b : UInt32
  c : UInt32
  d : UInt32
  e : UInt32
  f : UInt32
  g : UInt32
  h : UInt32

/-- The state before the first block: the fractional parts of the square roots of the first eight
primes. -/
def State.initial : State where
  a := 0x6a09e667
  b := 0xbb67ae85
  c := 0x3c6ef372
  d := 0xa54ff53a
  e := 0x510e527f
  f := 0x9b05688c
  g := 0x1f83d9ab
  h := 0x5be0cd19

/-- The words of a state, in order. -/
def State.words (s : State) : List UInt32 :=
  [s.a, s.b, s.c, s.d, s.e, s.f, s.g, s.h]

/-- Add two states word by word. -/
def State.add (s t : State) : State where
  a := s.a + t.a
  b := s.b + t.b
  c := s.c + t.c
  d := s.d + t.d
  e := s.e + t.e
  f := s.f + t.f
  g := s.g + t.g
  h := s.h + t.h

/-- The constants of the sixty-four rounds: the fractional parts of the cube roots of the first
sixty-four primes. -/
def roundConstants : List UInt32 := [
  0x428a2f98, 0x71374491, 0xb5c0fbcf, 0xe9b5dba5, 0x3956c25b, 0x59f111f1, 0x923f82a4, 0xab1c5ed5,
  0xd807aa98, 0x12835b01, 0x243185be, 0x550c7dc3, 0x72be5d74, 0x80deb1fe, 0x9bdc06a7, 0xc19bf174,
  0xe49b69c1, 0xefbe4786, 0x0fc19dc6, 0x240ca1cc, 0x2de92c6f, 0x4a7484aa, 0x5cb0a9dc, 0x76f988da,
  0x983e5152, 0xa831c66d, 0xb00327c8, 0xbf597fc7, 0xc6e00bf3, 0xd5a79147, 0x06ca6351, 0x14292967,
  0x27b70a85, 0x2e1b2138, 0x4d2c6dfc, 0x53380d13, 0x650a7354, 0x766a0abb, 0x81c2c92e, 0x92722c85,
  0xa2bfe8a1, 0xa81a664b, 0xc24b8b70, 0xc76c51a3, 0xd192e819, 0xd6990624, 0xf40e3585, 0x106aa070,
  0x19a4c116, 0x1e376c08, 0x2748774c, 0x34b0bcb5, 0x391c0cb3, 0x4ed8aa4a, 0x5b9cca4f, 0x682e6ff3,
  0x748f82ee, 0x78a5636f, 0x84c87814, 0x8cc70208, 0x90befffa, 0xa4506ceb, 0xbef9a3f7, 0xc67178f2]

/-- Rotate a word to the right. -/
def rotateRight (x : UInt32) (count : UInt32) : UInt32 :=
  (x >>> count) ||| (x <<< (32 - count))

/-- Extend a message schedule by `count` words, each computed from the sixteen before it; the words
are held with the last one first. -/
def extendSchedule : (count : Nat) → List UInt32 → List UInt32
  | 0, words => words
  | count + 1, words =>
      let near := words.getD 1 0
      let far := words.getD 14 0
      let mixNear := rotateRight near 17 ^^^ rotateRight near 19 ^^^ (near >>> 10)
      let mixFar := rotateRight far 7 ^^^ rotateRight far 18 ^^^ (far >>> 3)
      extendSchedule count ((mixNear + words.getD 6 0 + mixFar + words.getD 15 0) :: words)

/-- The words of a block, four bytes each, the most significant first. -/
def blockWords (block : Bytes) : List UInt32 :=
  (pieces 4 block).map fun word => UInt32.ofNat (Bytes.ofBigEndian word)

/-- One round: mix a round constant and a schedule word into the state. -/
def round (s : State) (input : UInt32 × UInt32) : State :=
  let mixE := rotateRight s.e 6 ^^^ rotateRight s.e 11 ^^^ rotateRight s.e 25
  let choice := (s.e &&& s.f) ^^^ (~~~s.e &&& s.g)
  let first := s.h + mixE + choice + input.1 + input.2
  let mixA := rotateRight s.a 2 ^^^ rotateRight s.a 13 ^^^ rotateRight s.a 22
  let majority := (s.a &&& s.b) ^^^ (s.a &&& s.c) ^^^ (s.b &&& s.c)
  { a := first + (mixA + majority), b := s.a, c := s.b, d := s.c
    e := s.d + first, f := s.e, g := s.f, h := s.g }

/-- Mix a block into the state. -/
def compress (s : State) (block : Bytes) : State :=
  let schedule := (extendSchedule 48 (blockWords block).reverse).reverse
  s.add ((roundConstants.zip schedule).foldl round s)

/-- What follows a message of `length` bytes: a one bit, as many zeros as make whole blocks, and the
length in bits. -/
def padding (length : Nat) : Bytes :=
  0x80 :: List.replicate ((119 - length % 64) % 64) 0 ++ Bytes.bigEndian 8 (8 * length)

/-- The digest of a message. -/
def hash (message : Bytes) : FixedBytes digestSize :=
  let blocks := pieces blockSize (message ++ padding message.length)
  let final := blocks.foldl compress State.initial
  ⟨final.words.flatMap fun word => Bytes.bigEndian 4 word.toNat, by
    simp [State.words, digestSize]⟩

end AgeFile.Sha256
