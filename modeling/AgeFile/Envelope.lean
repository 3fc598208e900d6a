import AgeFile.Randomness
import AgeFile.Recipient.Resolution

/-!
# Beginning a file

A file begins with its header and the payload nonce; the payload follows. Writing draws a file key,
has every recipient put it into stanzas, and yields the payload key; reading recovers the file key,
checks the header, and yields the same payload key and the place where the payload begins.
-/

namespace AgeFile

variable {m : Type → Type} [Monad m]

/-- Ask writers in order for their stanzas, up to the first that fails. `done` holds the stanzas of
the writers before. -/
def collectStanzas (fileKey : FileKey) :
    List (StanzaWriter m) → (done : List Stanza) → m (Except Error (List Stanza))
  | [], done => pure (.ok done)
  | writer :: writers, done => do
      match ← writer fileKey with
      | .error e => pure (.error e)
      | .ok stanzas => collectStanzas fileKey writers (done ++ stanzas)

/-- Write the header for stanzas under a file key, and the next random bytes as the payload nonce:
the bytes written and the payload key. -/
def sealHeader (fileKey : FileKey) (stanzas : List Stanza) (source : RandomSource) :
    Except Error (Bytes × CipherKey) × RandomSource :=
  match Header.encode stanzas fileKey with
  | .error e => (.error e, source)
  | .ok (_, bytes) =>
      let (nonce, source) := source.draw Format.payloadNonceSize
      match payloadKey fileKey nonce with
      | .error e => (.error e, source)
      | .ok key => (.ok (bytes ++ nonce.bytes, key), source)

/-- Write the beginning of a file for some recipients: its bytes, and the key of the payload that
follows. Without recipients nothing is drawn. -/
def encryptHeader (writers : List (StanzaWriter m)) (source : RandomSource) :
    m (Except Error (Bytes × CipherKey) × RandomSource) :=
  if writers.isEmpty then pure (.error .noRecipients, source)
  else do
    let (fileKey, source) := generateFileKey source
    match ← collectStanzas fileKey writers [] with
    | .error e => pure (.error e, source)
    | .ok stanzas => pure (sealHeader fileKey stanzas source)

/-- What writing into a buffer leaves behind: the payload key and the number of bytes written, or
the error; the buffer; and the source of random bytes. -/
structure BufferedHeader where
  result : Except Error (CipherKey × Nat)
  buffer : Bytes
  source : RandomSource

/-- Write the beginning of a file into a buffer. The buffer changes only if all of it fits. -/
def encryptHeaderInto (writers : List (StanzaWriter m)) (buffer : Bytes) (source : RandomSource) :
    m BufferedHeader := do
  match ← encryptHeader writers source with
  | (.error e, source) => pure ⟨.error e, buffer, source⟩
  | (.ok (bytes, key), source) =>
      if buffer.length < bytes.length then
        pure ⟨.error (.bufferTooSmall bytes.length buffer.length), buffer, source⟩
      else pure ⟨.ok (key, bytes.length), bytes ++ buffer.drop bytes.length, source⟩

/-- Read the beginning of a file: the payload key, and the offset at which the payload begins. -/
def decryptHeader (input : Bytes) (readers : List (StanzaReader m)) (limits : HeaderLimits := {}) :
    m (Except Error (CipherKey × Nat)) := do
  match Header.read limits (Cursor.start input) with
  | .error e => pure (.error e)
  | .ok (header, next) =>
      match ← unlockHeader header readers with
      | .error e => pure (.error e)
      | .ok fileKey =>
          match FixedBytes.ofBytes? Format.payloadNonceSize
              (next.rest.take Format.payloadNonceSize) with
          | none => pure (.error (.truncated Format.payloadNonceSize next.rest.length))
          | some nonce =>
              match payloadKey fileKey nonce with
              | .error e => pure (.error e)
              | .ok key => pure (.ok (key, next.offset + Format.payloadNonceSize))

end AgeFile
