import AgeFile.Crypto.Hmac

/-!
# HKDF-SHA-256

The key derivation of RFC 5869: a pseudorandom key is extracted from keying material and a salt, and
expanded to as many bytes as are wanted.
-/

namespace AgeFile.Hkdf

/-- The pseudorandom key of keying material under a salt. -/
def extract (salt material : Bytes) : Bytes :=
  (Hmac.tag salt material).bytes

/-- `count` output blocks from number `index` on. Each is the tag of the block before it, the info
and its own number, one byte. -/
def outputBlocks (key info : Bytes) : (count index : Nat) → (previous : Bytes) → Bytes
  | 0, _, _ => []
  | count + 1, index, previous =>
      let block := (Hmac.tag key (previous ++ info ++ [UInt8.ofNat index])).bytes
      block ++ outputBlocks key info count (index + 1) block

/-- The first `length` bytes of the output blocks under a pseudorandom key. -/
def expand (key info : Bytes) (length : Nat) : Bytes :=
  let count := (length + Sha256.digestSize - 1) / Sha256.digestSize
  (outputBlocks key info count 1 []).take length

/-- Derive `length` bytes from keying material, a salt and an info string. -/
def derive (material salt info : Bytes) (length : Nat) : Bytes :=
  expand (extract salt material) info length

end AgeFile.Hkdf
