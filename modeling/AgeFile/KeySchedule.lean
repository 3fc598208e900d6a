import AgeFile.Crypto.Hkdf
import AgeFile.Key

/-!
# Deriving keys

All keys of a file come from its file key by HKDF-SHA-256. Every derivation here asks for one output
block, so expanding is a single HMAC over the info and the block number one. A key that has been
destroyed makes each of these operations fail.
-/

namespace AgeFile

variable {context : MacContext}

namespace Key

/-- The HMAC-SHA-256 tag of a byte string. -/
def tag (key : MacKey context) (data : Bytes) : Except Error (FixedBytes Sha256.digestSize) := do
  let bytes ← key.read
  return Hmac.tag bytes.bytes data

/-- Whether a byte string of any length is the tag of another one. -/
def verifyTag (key : MacKey context) (data tag : Bytes) : Except Error Bool := do
  let bytes ← key.read
  return Hmac.verify bytes.bytes data tag

/-- Extract a pseudorandom key from keying material; the key is the salt. -/
def extract (salt : MacKey context) (material : Bytes) : Except Error (MacKey .extracted) := do
  let bytes ← salt.tag material
  return ofFixed bytes

/-- The first output block of a pseudorandom key. -/
def expand (key : MacKey context) (info : Bytes) : Except Error (FixedBytes Sha256.digestSize) :=
  key.tag (info ++ [1])

end Key

/-- Derive a cipher key from keying material, a salt and an info string. -/
def deriveKey (material : Bytes) (salt : MacKey context) (info : Bytes) :
    Except Error CipherKey := do
  let extracted ← salt.extract material
  let bytes ← extracted.expand info
  return Key.ofFixed bytes

/-- The key of the header MAC. -/
def headerKey (fileKey : FileKey) : Except Error (MacKey .header) := do
  let material ← fileKey.read
  let derived ← deriveKey material.bytes Key.zeroSalt Format.headerKeyInfo
  let bytes ← derived.read
  return Key.ofFixed bytes

/-- The key of the payload, which depends on the nonce that follows the header. -/
def payloadKey (fileKey : FileKey) (nonce : FixedBytes Format.payloadNonceSize) :
    Except Error CipherKey := do
  let salt : MacKey .nonce := Key.ofFixed nonce
  let material ← fileKey.read
  deriveKey material.bytes salt Format.payloadKeyInfo

end AgeFile
