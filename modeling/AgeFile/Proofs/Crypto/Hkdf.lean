import AgeFile.Crypto.Hkdf

/-!
# Output blocks of HKDF

The blocks of an expansion do not depend on how many of them are wanted: each is made from the one
before it, the info and its own number. Read `derive_eq` first: a derivation is the front of the
blocks with the numbers from one on. So what is derived to fewer bytes is the front of what is
derived to more (`take_derive`).
-/

namespace AgeFile.Hkdf

/-- The output block with a given number. Before the first one there is an empty one. -/
def block (key info : Bytes) : Nat → Bytes
  | 0 => []
  | number + 1 =>
      (Hmac.tag key (block key info number ++ info ++ [UInt8.ofNat (number + 1)])).bytes

/-- The blocks with consecutive numbers, put together. -/
def blocks (key info : Bytes) (first count : Nat) : Bytes :=
  (List.range' first count).flatMap (block key info)

/-- The salt that stands for none: as many zeros as a digest has bytes. -/
def noSalt : Bytes :=
  List.replicate Sha256.digestSize 0

variable (key info : Bytes)

/-- Output blocks are computed one after the other, each from the one before it. -/
theorem outputBlocks_eq (count number : Nat) :
    outputBlocks key info count (number + 1) (block key info number) =
      blocks key info (number + 1) count := by
  induction count generalizing number with
  | zero => rfl
  | succ count ih =>
      rw [blocks, List.range'_succ, List.flatMap_cons, ← blocks, ← ih (number + 1)]
      rfl

/-- All blocks from the first one on have the length of a digest. -/
theorem length_blocks (number count : Nat) :
    (blocks key info (number + 1) count).length = Sha256.digestSize * count := by
  induction count generalizing number with
  | zero => rfl
  | succ count ih =>
      rw [blocks, List.range'_succ, List.flatMap_cons, List.length_append, ← blocks,
        ih (number + 1), block, FixedBytes.length_eq, Nat.mul_succ, Nat.add_comm]

/-- More blocks begin with the same blocks. -/
theorem blocks_add (number count more : Nat) :
    blocks key info number (count + more) =
      blocks key info number count ++ blocks key info (number + count) more := by
  rw [blocks, blocks, blocks, ← List.flatMap_append, List.range'_append_1]

variable (material salt : Bytes)

/-- A derivation is the front of as many output blocks as its length takes. -/
theorem derive_eq (length : Nat) : derive material salt info length =
    (blocks (extract salt material) info 1
      ((length + Sha256.digestSize - 1) / Sha256.digestSize)).take length := by
  rw [derive, expand, ← outputBlocks_eq]
  rfl

/-- What is derived to fewer bytes is the front of what is derived to more. -/
theorem take_derive {short long : Nat} (h : short ≤ long) :
    (derive material salt info long).take short = derive material salt info short := by
  have hcount : (short + Sha256.digestSize - 1) / Sha256.digestSize ≤
      (long + Sha256.digestSize - 1) / Sha256.digestSize := Nat.div_le_div_right (by omega)
  obtain ⟨more, hmore⟩ := Nat.exists_eq_add_of_le hcount
  have henough : short ≤ (blocks (extract salt material) info 1
      ((short + Sha256.digestSize - 1) / Sha256.digestSize)).length := by
    rw [length_blocks _ _ 0]
    show short ≤ 32 * ((short + 32 - 1) / 32)
    omega
  rw [derive_eq, derive_eq, List.take_take, Nat.min_eq_left h, hmore, blocks_add,
    List.take_append_of_le_length henough]

end AgeFile.Hkdf
