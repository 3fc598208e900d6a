import AgeFile.Cipher

/-!
# Chunk nonces

The payload is encrypted in chunks. The nonce of a chunk is its number, as eleven bytes with the
most significant first, and a byte that is one for the last chunk. The number never wraps, and
after the last chunk there is no other.
-/

namespace AgeFile

/-- The nonce of a chunk: the bytes of its number, and a flag that is one for the last chunk. -/
structure ChunkNonce where
  counter : FixedBytes Format.chunkCounterSize
  flag : UInt8
  deriving DecidableEq

namespace ChunkNonce

/-- The nonce of a chunk that is not the last, by the bytes of its number. -/
def ofCounter (counter : FixedBytes Format.chunkCounterSize) : ChunkNonce :=
  ⟨counter, 0⟩

/-- The nonce of the first chunk. -/
def zero : ChunkNonce :=
  ofCounter (FixedBytes.zero _)

/-- The bytes of a nonce as the cipher takes them. -/
def toNonce (nonce : ChunkNonce) : Nonce :=
  ⟨nonce.counter.bytes ++ [nonce.flag], by
    rw [List.length_append, nonce.counter.length_eq]
    rfl⟩

/-- Whether the chunk is the last one. -/
def last (nonce : ChunkNonce) : Bool :=
  nonce.flag == 1

/-- Whether a chunk stands before this one. -/
def isNotFirst (nonce : ChunkNonce) : Bool :=
  nonce.counter.bytes.any (· != 0)

/-- Add one to a number that is given by its bytes, the least significant first. A byte that
overflows carries into the next one. -/
def addOne : Bytes → Bytes
  | [] => []
  | b :: bytes => (b + 1) :: if b = 0xff then addOne bytes else bytes

/-- Adding one keeps the number of bytes. -/
@[simp] theorem length_addOne (bytes : Bytes) : (addOne bytes).length = bytes.length := by
  induction bytes with
  | nil => rfl
  | cons b bytes ih =>
      rw [addOne]
      split
      · rw [List.length_cons, ih, List.length_cons]
      · rfl

/-- The bytes of the number after this one; the carry runs from the last byte to the first. -/
def succ (counter : FixedBytes Format.chunkCounterSize) : FixedBytes Format.chunkCounterSize :=
  ⟨(addOne counter.bytes.reverse).reverse, by simp⟩

/-- Go on to the next chunk. There is none after the last chunk, or after the last number. The nonce
is returned as it is afterwards. -/
def increment (nonce : ChunkNonce) : Except Error Unit × ChunkNonce :=
  if nonce.last then (.error .nonceFinalized, nonce)
  else if nonce.counter.bytes.all (· == 0xff) then (.error .counterExhausted, nonce)
  else (.ok (), { nonce with counter := succ nonce.counter })

/-- Mark the chunk as the last one. This can be done once. The nonce is returned as it is
afterwards. -/
def setLast (nonce : ChunkNonce) : Except Error Unit × ChunkNonce :=
  if nonce.last then (.error .nonceFinalized, nonce)
  else (.ok (), { nonce with flag := 1 })

/-- The nonce that a change leads to, if it is made. -/
def changed (change : Except Error Unit × ChunkNonce) : Except Error ChunkNonce :=
  change.1.map fun () => change.2

/-- The nonce of the next chunk. -/
def next (nonce : ChunkNonce) : Except Error ChunkNonce :=
  changed nonce.increment

/-- The nonce of the same chunk as the last one. -/
def markLast (nonce : ChunkNonce) : Except Error ChunkNonce :=
  changed nonce.setLast

/-- Go on by up to `steps` chunks. The first step that fails ends the run; the nonce reached is
returned with the error, if there was one. -/
def advance : (steps : Nat) → ChunkNonce → ChunkNonce × Option Error
  | 0, nonce => (nonce, none)
  | steps + 1, nonce =>
      match nonce.increment with
      | (.ok (), next) => advance steps next
      | (.error e, same) => (same, some e)

end ChunkNonce

end AgeFile
