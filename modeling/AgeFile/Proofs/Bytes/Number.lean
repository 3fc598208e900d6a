import AgeFile.Bytes.Basic

/-!
# The numbers that byte strings spell

A byte string of a given length spells the numbers below a power of 256. Read
`ofBigEndian_eq_reverse` first: the two ways to read a byte string differ in the order of the bytes
only, so facts about digits are proved with the least significant byte first.
-/

namespace AgeFile.Bytes

variable {bytes : Bytes}

/-- The first byte is the lowest digit. -/
theorem ofLittleEndian_cons (b : UInt8) (bytes : Bytes) :
    ofLittleEndian (b :: bytes) = b.toNat + 256 * ofLittleEndian bytes := rfl

/-- Read from the other end, a byte string spells the same number. -/
theorem ofBigEndian_eq_reverse (bytes : Bytes) :
    ofBigEndian bytes = ofLittleEndian bytes.reverse := by
  rw [ofBigEndian, ofLittleEndian, List.foldr_reverse]
  simp only [Nat.add_comm]

/-- A byte behind the others is the lowest digit. -/
theorem ofBigEndian_append_singleton (bytes : Bytes) (b : UInt8) :
    ofBigEndian (bytes ++ [b]) = 256 * ofBigEndian bytes + b.toNat := by
  rw [ofBigEndian_eq_reverse, List.reverse_append, List.reverse_singleton, List.singleton_append,
    ofLittleEndian_cons, ← ofBigEndian_eq_reverse, Nat.add_comm]

/-- One more byte gives 256 times as many numbers. -/
theorem pow_length_cons (b : UInt8) (bytes : Bytes) :
    Nat.pow 256 (b :: bytes).length = Nat.pow 256 bytes.length * 256 := rfl

/-- The number that a byte string spells is below the power of 256 that its length gives. -/
theorem ofLittleEndian_lt (bytes : Bytes) :
    ofLittleEndian bytes < Nat.pow 256 bytes.length := by
  induction bytes with
  | nil => exact Nat.one_pos
  | cons b bytes ih =>
      have hb := b.toNat_lt
      rw [ofLittleEndian_cons, pow_length_cons]
      omega

/-- The greatest of the numbers is spelled by bytes that are all the greatest byte. -/
theorem all_max_iff :
    bytes.all (· == 0xff) = true ↔ ofLittleEndian bytes + 1 = Nat.pow 256 bytes.length := by
  induction bytes with
  | nil => exact ⟨fun _ => rfl, fun _ => rfl⟩
  | cons b bytes ih =>
      have hb := b.toNat_lt
      have hrest := ofLittleEndian_lt bytes
      have hmax : b = 0xff ↔ b.toNat = 255 := UInt8.toNat_inj.symm
      rw [List.all_cons, Bool.and_eq_true, ih, beq_iff_eq, hmax, ofLittleEndian_cons,
        pow_length_cons]
      omega

/-- Zero is spelled by bytes that are all zero. -/
theorem any_ne_zero_iff : bytes.any (· != 0) = true ↔ ofLittleEndian bytes ≠ 0 := by
  induction bytes with
  | nil => simp [ofLittleEndian]
  | cons b bytes ih =>
      have hzero : b = 0 ↔ b.toNat = 0 := UInt8.toNat_inj.symm
      rw [List.any_cons, Bool.or_eq_true, ih, bne_iff_ne, Ne, hzero, ofLittleEndian_cons]
      omega

/-! ## Digits -/

/-- A number below a power of 256 is spelled by as many of its digits. -/
theorem ofLittleEndian_littleEndian {width n : Nat} (h : n < Nat.pow 256 width) :
    ofLittleEndian (littleEndian width n) = n := by
  induction width generalizing n with
  | zero => exact (Nat.lt_one_iff.mp h).symm
  | succ width ih =>
      have hrest : n / 256 < Nat.pow 256 width := Nat.div_lt_of_lt_mul (Nat.mul_comm .. ▸ h)
      have hdigit : (UInt8.ofNat (n % 256)).toNat = n % 256 :=
        UInt8.toNat_ofNat_of_lt' (Nat.mod_lt n (by decide))
      rw [littleEndian, ofLittleEndian_cons, ih hrest, hdigit]
      omega

/-- The digits of the number that a byte string spells are its bytes. -/
theorem littleEndian_ofLittleEndian (bytes : Bytes) :
    littleEndian bytes.length (ofLittleEndian bytes) = bytes := by
  induction bytes with
  | nil => rfl
  | cons b bytes ih =>
      have hb := b.toNat_lt
      have hdigit : (b.toNat + 256 * ofLittleEndian bytes) % 256 = b.toNat := by omega
      have hrest : (b.toNat + 256 * ofLittleEndian bytes) / 256 = ofLittleEndian bytes := by omega
      rw [List.length_cons, littleEndian, ofLittleEndian_cons, hdigit, hrest, ih,
        UInt8.ofNat_toNat]

/-- A number below a power of 256 is spelled by as many of its digits, the most significant
first. -/
theorem ofBigEndian_bigEndian {width n : Nat} (h : n < Nat.pow 256 width) :
    ofBigEndian (bigEndian width n) = n := by
  rw [ofBigEndian_eq_reverse, bigEndian, List.reverse_reverse, ofLittleEndian_littleEndian h]

/-- The digits of the number that a byte string spells are its bytes, the most significant
first. -/
theorem bigEndian_ofBigEndian (bytes : Bytes) :
    bigEndian bytes.length (ofBigEndian bytes) = bytes := by
  rw [ofBigEndian_eq_reverse, bigEndian, ← List.length_reverse, littleEndian_ofLittleEndian,
    List.reverse_reverse]

end AgeFile.Bytes
