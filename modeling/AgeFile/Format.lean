import AgeFile.Bytes.Basic

/-!
# The fixed parts of the file format

A file begins with a header: a version line, one stanza for each recipient, and a line that ends the
stanzas and carries the header's MAC. A nonce and the encrypted payload follow.
-/

namespace AgeFile.Format

/-- The first line of every header, without its line feed. -/
def versionLine : String := "age-encryption.org/v1"

/-- The word that begins a stanza. -/
def stanzaMarker : String := "->"

/-- The word that ends the list of stanzas. -/
def terminator : String := "---"

/-- The number of bytes of the header MAC. -/
abbrev macSize : Nat := 32

/-- The number of base64 characters of the header MAC. -/
abbrev macTextLength : Nat := 43

/-- The number of characters of a full body line. -/
abbrev bodyLineLength : Nat := 64

/-- The number of bytes of a file key. -/
abbrev fileKeySize : Nat := 16

/-- The number of bytes of a cipher key. -/
abbrev cipherKeySize : Nat := 32

/-- The number of bytes of an authentication tag. -/
abbrev tagSize : Nat := 16

/-- The number of bytes of an encrypted file key: the key and its tag. -/
abbrev encryptedFileKeySize : Nat := fileKeySize + tagSize

/-- The number of bytes of the nonce that follows the header. -/
abbrev payloadNonceSize : Nat := 16

/-- The number of bytes of the nonce of a payload chunk. -/
abbrev chunkNonceSize : Nat := 12

/-- The number of bytes of a chunk nonce that count chunks. -/
abbrev chunkCounterSize : Nat := chunkNonceSize - 1

/-- The number of bytes from the terminator to the end of the header: a space, the MAC and a line
feed. -/
abbrev footerLength : Nat := 1 + macTextLength + 1

/-- What the key of the header MAC is derived for. -/
def headerKeyInfo : Bytes := ascii "header"

/-- What the payload key is derived for. -/
def payloadKeyInfo : Bytes := ascii "payload"

end AgeFile.Format
