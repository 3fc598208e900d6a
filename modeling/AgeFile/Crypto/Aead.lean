import AgeFile.Crypto.ChaCha20
import AgeFile.Crypto.Poly1305

/-!
# ChaCha20-Poly1305

The authenticated encryption of RFC 8439 without associated data. A sealed message is the
ciphertext followed by a tag over it; opening refuses every message whose tag is not the one that
sealing makes.
-/

namespace AgeFile.Aead

/-- The number of bytes by which a sealed message is longer than its plaintext. -/
abbrev tagSize : Nat := Poly1305.tagSize

/-- Whether a message has more bytes than one nonce may encrypt: the block counter starts at one and
must not return to zero. -/
def isTooLong (message : Bytes) : Bool :=
  0xffffffff ≤ message.length / ChaCha20.blockSize

/-- The one-time key of the tag: the first half of the block with counter zero. -/
def tagKey (key : FixedBytes ChaCha20.keySize) (nonce : FixedBytes ChaCha20.nonceSize) :
    FixedBytes Poly1305.keySize :=
  ⟨(ChaCha20.block key 0 nonce).take 32, by
    simp [ChaCha20.block, ChaCha20.State.words, ChaCha20.Row.words, Poly1305.keySize]⟩

/-- What the tag is computed over: the ciphertext, zeros up to a multiple of sixteen bytes, and the
lengths of the associated data, of which there is none, and of the ciphertext. -/
def tagInput (ciphertext : Bytes) : Bytes :=
  ciphertext ++ List.replicate ((16 - ciphertext.length % 16) % 16) 0 ++
    Bytes.littleEndian 8 0 ++ Bytes.littleEndian 8 ciphertext.length

/-- The tag of a ciphertext. -/
def tag (key : FixedBytes ChaCha20.keySize) (nonce : FixedBytes ChaCha20.nonceSize)
    (ciphertext : Bytes) : FixedBytes Poly1305.tagSize :=
  Poly1305.tag (tagKey key nonce) (tagInput ciphertext)

/-- Combine a message with the key stream, which begins at block one. -/
def crypt (key : FixedBytes ChaCha20.keySize) (nonce : FixedBytes ChaCha20.nonceSize)
    (message : Bytes) : Bytes :=
  ChaCha20.xorStream key nonce 1 message

/-- Encrypt a message and append its tag. A message that is too long has no encryption. -/
def seal? (key : FixedBytes ChaCha20.keySize) (nonce : FixedBytes ChaCha20.nonceSize)
    (plaintext : Bytes) : Option Bytes :=
  if isTooLong plaintext then none
  else
    let ciphertext := crypt key nonce plaintext
    some (ciphertext ++ (tag key nonce ciphertext).bytes)

/-- Check the tag at the end of a message and decrypt what stands before it. -/
def open? (key : FixedBytes ChaCha20.keySize) (nonce : FixedBytes ChaCha20.nonceSize)
    (message : Bytes) : Option Bytes :=
  if message.length < tagSize then none
  else
    let ciphertext := message.take (message.length - tagSize)
    let found := message.drop (message.length - tagSize)
    if isTooLong ciphertext then none
    else if (tag key nonce ciphertext).bytes = found then some (crypt key nonce ciphertext)
    else none

end AgeFile.Aead
