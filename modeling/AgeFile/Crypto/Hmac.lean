import AgeFile.Crypto.Sha256

/-!
# HMAC-SHA-256

The keyed hash of RFC 2104 over SHA-256. Keys of every length are accepted.
-/

namespace AgeFile.Hmac

/-- A key brought to the length of a block: one that is longer is hashed first, and zeros follow. -/
def blockKey (key : Bytes) : Bytes :=
  let short := if Sha256.blockSize < key.length then (Sha256.hash key).bytes else key
  short ++ List.replicate (Sha256.blockSize - short.length) 0

/-- The authentication tag of a message under a key. -/
def tag (key message : Bytes) : FixedBytes Sha256.digestSize :=
  let block := blockKey key
  let inner := Sha256.hash (block.map (· ^^^ 0x36) ++ message)
  Sha256.hash (block.map (· ^^^ 0x5c) ++ inner.bytes)

/-- Whether a byte string is the authentication tag of a message under a key. -/
def verify (key message tag : Bytes) : Bool :=
  (Hmac.tag key message).bytes == tag

end AgeFile.Hmac
