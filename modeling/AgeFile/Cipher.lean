import AgeFile.Crypto.Aead
import AgeFile.Key

/-!
# Cipher contexts and wrapped file keys

A context binds a key, a nonce and a direction, and keeps working when the key it was made from is
destroyed. A file key is wrapped by encrypting it under a key of its own with the zero nonce, which
is sound because such a key encrypts nothing else.
-/

namespace AgeFile

/-- What a context is made for. -/
inductive Direction where
  | encrypt
  | decrypt
  deriving DecidableEq

/-- The name of a direction in errors. -/
def Direction.name : Direction → String
  | encrypt => "encryption"
  | decrypt => "decryption"

/-- The name of a direction in the description of a context. -/
def Direction.label : Direction → String
  | encrypt => "Encrypt"
  | decrypt => "Decrypt"

/-- The nonce of a message. -/
abbrev Nonce := FixedBytes Format.chunkNonceSize

/-- A key, a nonce, and a direction. -/
structure CipherContext where
  key : FixedBytes Format.cipherKeySize
  nonce : Nonce
  direction : Direction
  deriving DecidableEq

namespace CipherContext

/-- Make a context of a key that can be read. -/
def create (key : CipherKey) (nonce : Nonce) (direction : Direction) :
    Except Error CipherContext := do
  let bytes ← key.read
  return ⟨bytes, nonce, direction⟩

/-- Encrypt a message: the ciphertext and its tag. A context made for decryption refuses. -/
def encrypt (context : CipherContext) (plaintext : Bytes) : Except Error Bytes :=
  match context.direction with
  | .decrypt => .error (.wrongDirection context.direction.name)
  | .encrypt =>
      match Aead.seal? context.key context.nonce plaintext with
      | some message => .ok message
      | none => .error (.encryptionFailed "aead::Error")

/-- Check the tag of a message and decrypt it. A context made for encryption refuses. -/
def decrypt (context : CipherContext) (message : Bytes) : Except Error Bytes :=
  match context.direction with
  | .encrypt => .error (.wrongDirection context.direction.name)
  | .decrypt =>
      match Aead.open? context.key context.nonce message with
      | some plaintext => .ok plaintext
      | none => .error .decryptionFailed

/-- Describe a context without showing its key. -/
def describe (context : CipherContext) : String :=
  "AeadCipher \x7b direction: " ++ context.direction.label ++ ", .. \x7d"

end CipherContext

/-- Encrypt a file key under a key that is used for nothing else. The wrapping key is read before
the file key. -/
def wrapFileKey (wrapKey : CipherKey) (fileKey : FileKey) : Except Error EncryptedFileKey := do
  let context ← CipherContext.create wrapKey (FixedBytes.zero _) .encrypt
  let bytes ← fileKey.read
  let message ← context.encrypt bytes.bytes
  Key.ofBytes .encryptedFile message

/-- Decrypt a file key that `wrapFileKey` has encrypted. The wrapping key is read before the
encrypted one. -/
def unwrapFileKey (wrapKey : CipherKey) (wrapped : EncryptedFileKey) : Except Error FileKey := do
  let context ← CipherContext.create wrapKey (FixedBytes.zero _) .decrypt
  let bytes ← wrapped.read
  let plaintext ← context.decrypt bytes.bytes
  Key.ofBytes .file plaintext

end AgeFile
