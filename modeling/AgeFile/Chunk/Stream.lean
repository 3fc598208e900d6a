import AgeFile.Chunk.Nonce

/-!
# The payload stream

A payload is a sequence of chunks, each sealed under the payload key at its own position. A chunk
opens only at the position at which it was sealed, so chunks cannot be moved, and the end of the
payload cannot be cut off.
-/

namespace AgeFile

/-- Encrypt a chunk at its position. -/
def sealChunk (key : CipherKey) (nonce : ChunkNonce) (plaintext : Bytes) : Except Error Bytes := do
  let context ← CipherContext.create key nonce.toNonce .encrypt
  context.encrypt plaintext

/-- Decrypt a chunk at its position. -/
def openChunk (key : CipherKey) (nonce : ChunkNonce) (sealed : Bytes) : Except Error Bytes := do
  let context ← CipherContext.create key nonce.toNonce .decrypt
  context.decrypt sealed

/-- Apply `step` to each chunk of a payload at its position: the first one at `nonce`, the others at
the positions after it, and the last one marked as the last. -/
def chunksFrom (step : ChunkNonce → Bytes → Except Error Bytes) (nonce : ChunkNonce) :
    List Bytes → Except Error (List Bytes)
  | [] => .ok []
  | [chunk] => do
      let nonce ← nonce.markLast
      return [← step nonce chunk]
  | chunk :: chunks => do
      let done ← step nonce chunk
      let next ← nonce.next
      return done :: (← chunksFrom step next chunks)

/-- Encrypt the chunks of a payload. -/
def sealChunks (key : CipherKey) (chunks : List Bytes) : Except Error (List Bytes) :=
  chunksFrom (sealChunk key) ChunkNonce.zero chunks

/-- Decrypt the chunks of a payload. -/
def openChunks (key : CipherKey) (sealed : List Bytes) : Except Error (List Bytes) :=
  chunksFrom (openChunk key) ChunkNonce.zero sealed

end AgeFile
