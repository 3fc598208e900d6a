import AgeFile.Bytes.Basic

/-!
# Byte strings of a fixed length

Keys, nonces, tags and digests have a length that their kind fixes, so the length is part of the
type.
-/

namespace AgeFile

/-- A byte string together with a proof that it has `size` bytes. -/
structure FixedBytes (size : Nat) where
  bytes : Bytes
  length_eq : bytes.length = size
  deriving DecidableEq

namespace FixedBytes

variable {size : Nat}

attribute [simp] length_eq

/-- Two values with the same bytes are equal. -/
@[ext] theorem ext {left right : FixedBytes size} (h : left.bytes = right.bytes) :
    left = right := by
  cases left
  cases right
  simp_all

/-- Take a byte string of exactly `size` bytes; any other length is refused. -/
def ofBytes? (size : Nat) (bytes : Bytes) : Option (FixedBytes size) :=
  if h : bytes.length = size then some ⟨bytes, h⟩ else none

/-- The value whose bytes are all zero. -/
def zero (size : Nat) : FixedBytes size :=
  ⟨List.replicate size 0, List.length_replicate⟩

/-- The value brought to another size: its front, and zeros where it is too short. -/
def resize (target : Nat) (value : FixedBytes size) : FixedBytes target :=
  ⟨value.bytes.take target ++ List.replicate (target - size) 0, by
    rw [List.length_append, List.length_take, value.length_eq, List.length_replicate]
    omega⟩

/-- A byte string is taken exactly when it is the bytes of the value. -/
theorem ofBytes?_eq_some_iff {bytes : Bytes} {value : FixedBytes size} :
    ofBytes? size bytes = some value ↔ bytes = value.bytes := by
  unfold ofBytes?
  constructor
  · intro h
    split at h
    · exact congrArg FixedBytes.bytes (Option.some.inj h)
    · exact absurd h (by simp)
  · rintro rfl
    simp [value.length_eq]

/-- The bytes of a value are taken back as that value. -/
@[simp] theorem ofBytes?_bytes (value : FixedBytes size) :
    ofBytes? size value.bytes = some value :=
  ofBytes?_eq_some_iff.mpr rfl

/-- The front of a value that is long enough is the front of its bytes. -/
theorem bytes_resize_of_le {target : Nat} (value : FixedBytes size) (h : target ≤ size) :
    (value.resize target).bytes = value.bytes.take target := by
  show value.bytes.take target ++ List.replicate (target - size) 0 = _
  rw [Nat.sub_eq_zero_of_le h, List.replicate_zero, List.append_nil]

/-- A value is found again at the front of a longer one. -/
theorem resize_resize {target : Nat} (value : FixedBytes size) (h : size ≤ target) :
    (value.resize target).resize size = value := by
  have hall : value.bytes.take target = value.bytes :=
    List.take_of_length_le (Nat.le_trans (Nat.le_of_eq value.length_eq) h)
  refine ext ?_
  rw [bytes_resize_of_le _ h]
  show (value.bytes.take target ++ List.replicate (target - size) 0).take size = value.bytes
  rw [hall]
  exact List.take_left' value.length_eq

end FixedBytes

end AgeFile
