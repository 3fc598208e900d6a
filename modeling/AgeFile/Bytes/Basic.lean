/-!
# Byte strings

A byte string is a list of octets. This module names the type, the bytes of an ASCII text, and
the two readings of a byte string as a number.
-/

namespace AgeFile

/-- A byte string. -/
abbrev Bytes := List UInt8

/-- The bytes of an ASCII text, one for each character. -/
def ascii (text : String) : Bytes :=
  text.toList.map fun c => UInt8.ofNat c.toNat

/-- The line feed that ends every line. -/
def lineFeed : UInt8 := 0x0a

/-- The space that separates the words of a line. -/
def space : UInt8 := 0x20

namespace Bytes

/-- The text whose characters have the given bytes as code points. -/
def latinText (bytes : Bytes) : String :=
  String.ofList (bytes.map fun b => Char.ofNat b.toNat)

/-- The lowest `width` digits of a number in base 256, the least significant first. -/
def littleEndian : (width : Nat) → Nat → Bytes
  | 0, _ => []
  | width + 1, n => UInt8.ofNat (n % 256) :: littleEndian width (n / 256)

/-- The number that a byte string spells in base 256, the least significant digit first. -/
def ofLittleEndian (bytes : Bytes) : Nat :=
  bytes.foldr (fun b n => b.toNat + 256 * n) 0

/-- The lowest `width` digits of a number in base 256, the most significant first. -/
def bigEndian (width n : Nat) : Bytes :=
  (littleEndian width n).reverse

/-- The number that a byte string spells in base 256, the most significant digit first. -/
def ofBigEndian (bytes : Bytes) : Nat :=
  bytes.foldl (fun n b => 256 * n + b.toNat) 0

/-- A number below the surrogates is the code point of its character. -/
theorem toNat_charOfNat {n : Nat} (h : n < 0xd800) : (Char.ofNat n).toNat = n := by
  have hvalid : n.isValidChar := Or.inl h
  rw [Char.ofNat, dif_pos hvalid]
  rfl

/-- The bytes of a Latin text are read off it again, below 128 as its ASCII bytes. -/
theorem ascii_latinText (bytes : Bytes) : ascii bytes.latinText = bytes := by
  simp only [ascii, latinText, String.toList_ofList, List.map_map]
  have hpoint : (fun c => UInt8.ofNat c.toNat) ∘ (fun b : UInt8 => Char.ofNat b.toNat) = id := by
    funext b
    have hb := b.toNat_lt
    simp only [Function.comp, id]
    rw [toNat_charOfNat (by omega), UInt8.ofNat_toNat]
  rw [hpoint, List.map_id]

/-- The text of the bytes of a text whose characters are all below 256 is that text. -/
theorem latinText_ascii {text : String} (h : ∀ c ∈ text.toList, c.toNat < 256) :
    (ascii text).latinText = text := by
  simp only [ascii, latinText, List.map_map]
  rw [List.map_congr_left (g := id), List.map_id, String.ofList_toList]
  intro c hc
  have hlt := h c hc
  simp only [Function.comp, id]
  rw [show (UInt8.ofNat c.toNat).toNat = c.toNat by simp [hlt], Char.ofNat_toNat]

/-- A number has as many digits as were asked for. -/
@[simp] theorem length_littleEndian (width n : Nat) :
    (littleEndian width n).length = width := by
  induction width generalizing n with
  | zero => rfl
  | succ width ih => simp [littleEndian, ih]

/-- A number has as many digits as were asked for, whichever end comes first. -/
@[simp] theorem length_bigEndian (width n : Nat) : (bigEndian width n).length = width := by
  simp [bigEndian]

end Bytes

end AgeFile
