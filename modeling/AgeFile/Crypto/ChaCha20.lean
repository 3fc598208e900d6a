import AgeFile.Bytes.Fixed
import AgeFile.Bytes.Pieces

/-!
# ChaCha20

The stream cipher of RFC 8439. A block of sixty-four bytes is made from a key, a counter and a
nonce; a message is combined with consecutive blocks. The main statement, `xorStream_xorStream`,
says that doing so twice gives the message back.
-/

namespace AgeFile.ChaCha20

/-- The number of bytes of a key. -/
abbrev keySize : Nat := 32

/-- The number of bytes of a nonce. -/
abbrev nonceSize : Nat := 12

/-- The number of bytes of a block. -/
abbrev blockSize : Nat := 64

/-- Four words, one row of the state. -/
structure Row where
  a : UInt32
  b : UInt32
  c : UInt32
  d : UInt32

namespace Row

/-- Combine two rows word by word. -/
def zip (f : UInt32 → UInt32 → UInt32) (r s : Row) : Row :=
  ⟨f r.a s.a, f r.b s.b, f r.c s.c, f r.d s.d⟩

/-- Rotate every word of a row to the left. -/
def rotateWords (count : UInt32) (r : Row) : Row :=
  let rotate (x : UInt32) := (x <<< count) ||| (x >>> (32 - count))
  ⟨rotate r.a, rotate r.b, rotate r.c, rotate r.d⟩

/-- Move every word of a row one place to the left. -/
def shift (r : Row) : Row :=
  ⟨r.b, r.c, r.d, r.a⟩

/-- The words of a row. -/
def words (r : Row) : List UInt32 :=
  [r.a, r.b, r.c, r.d]

/-- The row of the first sixteen bytes of a byte string, four bytes to a word, the least significant
first. -/
def ofBytes (bytes : Bytes) : Row :=
  let word (i : Nat) := UInt32.ofNat (Bytes.ofLittleEndian ((bytes.drop (4 * i)).take 4))
  ⟨word 0, word 1, word 2, word 3⟩

end Row

/-- The state of sixteen words in four rows. -/
structure State where
  first : Row
  second : Row
  third : Row
  fourth : Row

namespace State

/-- A quarter round on each of the four columns. -/
def columnRound (s : State) : State :=
  let first := s.first.zip (· + ·) s.second
  let fourth := (s.fourth.zip (· ^^^ ·) first).rotateWords 16
  let third := s.third.zip (· + ·) fourth
  let second := (s.second.zip (· ^^^ ·) third).rotateWords 12
  let first := first.zip (· + ·) second
  let fourth := (fourth.zip (· ^^^ ·) first).rotateWords 8
  let third := third.zip (· + ·) fourth
  let second := (second.zip (· ^^^ ·) third).rotateWords 7
  ⟨first, second, third, fourth⟩

/-- A column round, and one on the diagonals, which are the columns of the state with its rows
shifted. -/
def doubleRound (s : State) : State :=
  let s := s.columnRound
  let s := columnRound ⟨s.first, s.second.shift, s.third.shift.shift, s.fourth.shift.shift.shift⟩
  ⟨s.first, s.second.shift.shift.shift, s.third.shift.shift, s.fourth.shift⟩

/-- Add two states word by word. -/
def add (s t : State) : State :=
  ⟨s.first.zip (· + ·) t.first, s.second.zip (· + ·) t.second, s.third.zip (· + ·) t.third,
    s.fourth.zip (· + ·) t.fourth⟩

/-- The words of a state, row by row. -/
def words (s : State) : List UInt32 :=
  s.first.words ++ s.second.words ++ s.third.words ++ s.fourth.words

/-- The state before the rounds: four constant words, the key, the counter and the nonce. -/
def initial (key : FixedBytes keySize) (counter : UInt32) (nonce : FixedBytes nonceSize) : State :=
  let tail := Row.ofBytes (List.replicate 4 0 ++ nonce.bytes)
  { first := ⟨0x61707865, 0x3320646e, 0x79622d32, 0x6b206574⟩
    second := Row.ofBytes key.bytes
    third := Row.ofBytes (key.bytes.drop 16)
    fourth := { tail with a := counter } }

end State

/-- The block with a given counter. -/
def block (key : FixedBytes keySize) (counter : UInt32) (nonce : FixedBytes nonceSize) : Bytes :=
  let s := State.initial key counter nonce
  let mixed := Nat.repeat State.doubleRound 10 s
  (s.add mixed).words.flatMap fun word => Bytes.littleEndian 4 word.toNat

/-- Combine two byte strings bit by bit, up to the end of the shorter one. -/
def xor (left right : Bytes) : Bytes :=
  List.zipWith (· ^^^ ·) left right

/-- Combine each of the pieces of a message with a block, the first with the block that has the
given counter and the others with those after it. The pieces done before are held with the last one
first. -/
def xorBlocks (key : FixedBytes keySize) (nonce : FixedBytes nonceSize) :
    (counter : UInt32) → List Bytes → (done : List Bytes) → Bytes
  | _, [], done => done.reverse.flatten
  | counter, piece :: pieces, done =>
      xorBlocks key nonce (counter + 1) pieces (xor piece (block key counter nonce) :: done)

/-- Combine a message with the blocks from the given counter on. -/
def xorStream (key : FixedBytes keySize) (nonce : FixedBytes nonceSize) (counter : UInt32)
    (message : Bytes) : Bytes :=
  xorBlocks key nonce counter (pieces blockSize message) []

/-- A block has sixty-four bytes. -/
@[simp] theorem length_block (key : FixedBytes keySize) (counter : UInt32)
    (nonce : FixedBytes nonceSize) : (block key counter nonce).length = blockSize := by
  simp [block, State.words, Row.words, blockSize]

/-- Combining with the same bytes again gives the first byte string back, if they are enough. -/
theorem xor_xor (left right : Bytes) (h : left.length ≤ right.length) :
    xor (xor left right) right = left := by
  induction left generalizing right with
  | nil => simp [xor]
  | cons l left ih =>
      cases right with
      | nil => simp at h
      | cons r right =>
          simp only [List.length_cons, Nat.add_le_add_iff_right] at h
          have hxor : l ^^^ r ^^^ r = l := by
            rw [UInt8.xor_assoc, UInt8.xor_self, UInt8.xor_zero]
          simp only [xor, List.zipWith_cons_cons, hxor, List.cons.injEq, true_and]
          exact ih right h

/-- Combining with enough bytes keeps the length. -/
theorem length_xor (left right : Bytes) (h : left.length ≤ right.length) :
    (xor left right).length = left.length := by
  simp [xor, Nat.min_eq_left h]

/-- The pieces done before come out in front of the others. -/
theorem xorBlocks_done (key : FixedBytes keySize) (nonce : FixedBytes nonceSize) (counter : UInt32)
    (rest done : List Bytes) :
    xorBlocks key nonce counter rest done =
      done.reverse.flatten ++ xorBlocks key nonce counter rest [] := by
  induction rest generalizing counter done with
  | nil => simp [xorBlocks]
  | cons piece rest ih =>
      rw [xorBlocks, xorBlocks, ih _ (_ :: done), ih _ [_]]
      simp

/-- The first sixty-four bytes of a message are combined with the first block, and what follows them
with the blocks after it. -/
theorem xorStream_of_ne_nil (key : FixedBytes keySize) (nonce : FixedBytes nonceSize)
    (counter : UInt32) (message : Bytes) (h : message ≠ []) :
    xorStream key nonce counter message =
      xor (message.take blockSize) (block key counter nonce) ++
        xorStream key nonce (counter + 1) (message.drop blockSize) := by
  rw [xorStream, pieces_of_ne_nil blockSize (by decide) message h, xorBlocks, xorBlocks_done]
  simp [xorStream]

/-- An encrypted message is as long as the message. -/
@[simp] theorem length_xorStream (key : FixedBytes keySize) (nonce : FixedBytes nonceSize)
    (counter : UInt32) (message : Bytes) :
    (xorStream key nonce counter message).length = message.length := by
  induction hlen : message.length using Nat.strongRecOn generalizing counter message with
  | ind n ih =>
      cases message with
      | nil => simpa [xorStream, xorBlocks] using hlen
      | cons b message =>
          have hblock : 0 < blockSize := by decide
          rw [xorStream_of_ne_nil _ _ _ _ (List.cons_ne_nil b message), List.length_append,
            length_xor _ _ (by simp only [List.length_take, length_block]; omega),
            ih ((b :: message).drop blockSize).length
              (by simp only [List.length_drop, List.length_cons] at hlen ⊢; omega) _ _ rfl,
            ← hlen, ← List.length_append, List.take_append_drop]

/-- Decrypting is encrypting again. -/
theorem xorStream_xorStream (key : FixedBytes keySize) (nonce : FixedBytes nonceSize)
    (counter : UInt32) (message : Bytes) :
    xorStream key nonce counter (xorStream key nonce counter message) = message := by
  induction hlen : message.length using Nat.strongRecOn generalizing counter message with
  | ind n ih =>
      cases message with
      | nil => rfl
      | cons b message =>
          have hblock : 0 < blockSize := by decide
          have hne := List.cons_ne_nil b message
          have hfirst : ((b :: message).take blockSize).length ≤
              (block key counter nonce).length := by
            simp only [List.length_take, length_block]
            omega
          have hout : xorStream key nonce counter (b :: message) ≠ [] := fun h => by
            have := length_xorStream key nonce counter (b :: message)
            simp [h] at this
          have hcut := xorStream_of_ne_nil key nonce counter (b :: message) hne
          rw [xorStream_of_ne_nil _ _ _ _ hout]
          by_cases hfull : blockSize ≤ (b :: message).length
          · have hlength := length_xor _ _ hfirst
            rw [List.length_take, Nat.min_eq_left hfull] at hlength
            rw [hcut, List.take_left' hlength, List.drop_left' hlength, xor_xor _ _ hfirst,
              ih _ (by simp only [List.length_drop, List.length_cons] at hlen ⊢; omega) _ _ rfl,
              List.take_append_drop]
          · have hshort : (b :: message).length ≤ blockSize := by omega
            have hnil : xorStream key nonce (counter + 1) ([] : Bytes) = [] := rfl
            rw [List.take_of_length_le hshort] at hcut hfirst
            rw [List.drop_of_length_le hshort, hnil, List.append_nil] at hcut
            have hlength := length_xor _ _ hfirst
            rw [hcut, List.take_of_length_le (by omega), List.drop_of_length_le (by omega),
              xor_xor _ _ hfirst, hnil, List.append_nil]

end AgeFile.ChaCha20
