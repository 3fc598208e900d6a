import AgeFile.Bytes.Fixed
import AgeFile.Bytes.Pieces

/-!
# Poly1305

The one-time authenticator of RFC 8439: the message is the coefficients of a polynomial modulo a
prime, evaluated at one half of the key; the other half is added.
-/

namespace AgeFile.Poly1305

/-- The number of bytes of a key. -/
abbrev keySize : Nat := 32

/-- The number of bytes of a tag. -/
abbrev tagSize : Nat := 16

/-- The prime modulus, five below the 130th power of two. -/
def modulus : Nat := 0x3fffffffffffffffffffffffffffffffb

/-- The first half of a key with the bits cleared that the format keeps zero. -/
def clamp (r : Nat) : Nat :=
  r &&& 0x0ffffffc0ffffffc0ffffffc0fffffff

/-- Take in a block of up to sixteen bytes: a one bit above its top is added to the sum, and the sum
is multiplied by the evaluation point. -/
def absorb (r sum : Nat) (block : Bytes) : Nat :=
  (sum + Bytes.ofLittleEndian (block ++ [1])) * r % modulus

/-- The tag of a message under a one-time key. -/
def tag (key : FixedBytes keySize) (message : Bytes) : FixedBytes tagSize :=
  let r := clamp (Bytes.ofLittleEndian (key.bytes.take 16))
  let s := Bytes.ofLittleEndian (key.bytes.drop 16)
  let sum := (pieces 16 message).foldl (absorb r) 0
  ⟨Bytes.littleEndian 16 (sum + s), Bytes.length_littleEndian 16 _⟩

end AgeFile.Poly1305
