import AgeFile.Header.Reader
import AgeFile.KeySchedule

/-!
# Authenticating a header

The MAC of a header is the HMAC-SHA-256 tag of its covered bytes under a key derived from the file
key. A header is verified by writing its stanzas again, so the MAC covers what was read and nothing
that the reader ignored.
-/

namespace AgeFile

namespace Header

/-- Append the MAC line of the bytes that a buffer holds. The buffer is returned as it is
afterwards; it changes only if the MAC can be computed. -/
def appendMac {context : MacContext} (key : MacKey context) (buffer : Bytes) :
    Except Error Mac × Bytes :=
  match key.tag buffer with
  | .error e => (.error e, buffer)
  | .ok mac => (.ok mac, buffer ++ encodeFooter mac)

/-- Check that a MAC is that of the covered bytes. -/
def verifyMacOf {context : MacContext} (key : MacKey context) (covered : Bytes) (mac : Mac) :
    Except Error Unit := do
  if ← key.verifyTag covered mac.bytes then return ()
  throw .headerMacMismatch

/-- Write a header for stanzas and authenticate it under a file key: the header and its bytes. -/
def encode (stanzas : List Stanza) (fileKey : FileKey) : Except Error (Header × Bytes) := do
  let key ← headerKey fileKey
  let (result, bytes) := appendMac key (coveredBytes stanzas)
  let mac ← result
  return (⟨stanzas, mac⟩, bytes)

/-- Check the MAC of a header under the key derived from a file key. -/
def verifyMac (header : Header) (fileKey : FileKey) : Except Error Unit := do
  let key ← headerKey fileKey
  verifyMacOf key (coveredBytes header.stanzas) header.mac

end Header

end AgeFile
