import AgeFile.Bytes.Fixed
import AgeFile.Error

/-!
# Keys

Every key is of a kind, which fixes its length and its name in errors. A key can be destroyed: its
storage is zeroed, and from then on it cannot be read. MAC keys of all contexts are kept in storage
of one size, so only the front of it is read. The main statements, `read_of_live` and
`read_of_destroyed`, say what a key reads as before and after.
-/

namespace AgeFile

/-- What a MAC key is used for. -/
inductive MacContext where
  /-- The MAC of a header. -/
  | header
  /-- The pseudorandom key that key derivation extracts. -/
  | extracted
  /-- The payload nonce, which is the salt of the payload key. -/
  | nonce
  /-- A salt of key derivation. -/
  | salt
  deriving DecidableEq

/-- The kinds of key. -/
inductive KeyKind where
  /-- The secret of one file, from which its other keys are derived. -/
  | file
  /-- A key of the authenticated cipher. -/
  | cipher
  /-- A file key encrypted for one recipient. -/
  | encryptedFile
  /-- A key of HMAC-SHA-256. -/
  | mac (context : MacContext)
  deriving DecidableEq

/-- The number of bytes of a MAC key. -/
@[reducible] def MacContext.size : MacContext → Nat
  | header | extracted | salt => 32
  | nonce => Format.payloadNonceSize

/-- The number of bytes that MAC keys of all contexts are kept in: the most that one of them
needs. -/
abbrev MacContext.storageSize : Nat := 32

/-- The name of a MAC key in errors. -/
def MacContext.name : MacContext → String
  | header => "header MAC key"
  | extracted => "extracted MAC key"
  | nonce => "nonce MAC key"
  | salt => "salt MAC key"

/-- The name of a context in the description of a key. -/
def MacContext.label : MacContext → String
  | header => "Header"
  | extracted => "Extracted"
  | nonce => "Nonce"
  | salt => "Salt"

/-- The number of bytes of a key. -/
@[reducible] def KeyKind.size : KeyKind → Nat
  | file => Format.fileKeySize
  | cipher => Format.cipherKeySize
  | encryptedFile => Format.encryptedFileKeySize
  | mac context => context.size

/-- The number of bytes that a key is kept in. -/
@[reducible] def KeyKind.storageSize : KeyKind → Nat
  | file => Format.fileKeySize
  | cipher => Format.cipherKeySize
  | encryptedFile => Format.encryptedFileKeySize
  | mac _ => MacContext.storageSize

/-- A key fits into its storage. -/
theorem KeyKind.size_le_storageSize (kind : KeyKind) : kind.size ≤ kind.storageSize := by
  cases kind with
  | file | cipher | encryptedFile => exact Nat.le_refl _
  | mac context => cases context <;> decide

/-- The name of a key in errors. -/
def KeyKind.name : KeyKind → String
  | file => "file key"
  | cipher => "cipher key"
  | encryptedFile => "encrypted file key"
  | mac context => context.name

/-- The beginning of the description of a key, up to its bytes. -/
def KeyKind.heading : KeyKind → String
  | file => "FileKey \x7b "
  | cipher => "CipherKey \x7b "
  | encryptedFile => "EncryptedFileKey \x7b "
  | mac context => "MacKey \x7b context: " ++ context.label ++ ", "

/-- A key: its storage, and whether it has been destroyed. Zeros follow a key that is shorter than
its storage. -/
structure Key (kind : KeyKind) where
  storage : FixedBytes kind.storageSize
  destroyed : Bool
  deriving DecidableEq

/-- The secret of one file. -/
abbrev FileKey := Key .file

/-- A key of the authenticated cipher. -/
abbrev CipherKey := Key .cipher

/-- A file key encrypted for one recipient. -/
abbrev EncryptedFileKey := Key .encryptedFile

/-- A key of HMAC-SHA-256. -/
abbrev MacKey (context : MacContext) := Key (.mac context)

namespace Key

variable {kind : KeyKind}

/-- A key with the given bytes. -/
def ofFixed (bytes : FixedBytes kind.size) : Key kind :=
  ⟨bytes.resize kind.storageSize, false⟩

/-- Make a key of a byte string; the wrong length is refused. -/
def ofBytes (kind : KeyKind) (bytes : Bytes) : Except Error (Key kind) :=
  match FixedBytes.ofBytes? kind.size bytes with
  | some fixed => .ok (ofFixed fixed)
  | none => .error (.invalidKeyLength kind.name kind.size bytes.length)

/-- The salt that stands for none: all zero. -/
def zeroSalt : MacKey .salt :=
  ofFixed (FixedBytes.zero _)

/-- The front of a key's storage, as long as its kind says. -/
def content (key : Key kind) : FixedBytes kind.size :=
  key.storage.resize kind.size

/-- Read a key; one that has been destroyed cannot be read. -/
def read (key : Key kind) : Except Error (FixedBytes kind.size) :=
  if key.destroyed then .error (.keyDestroyed kind.name) else .ok key.content

/-- Zero a key and make it unreadable. -/
def destroy (_key : Key kind) : Key kind :=
  ⟨FixedBytes.zero _, true⟩

/-- Describe a key without showing it. -/
def describe (key : Key kind) : String :=
  kind.heading ++ "bytes: \"[REDACTED]\", destroyed: " ++ toString key.destroyed ++ " \x7d"

/-- The bytes that a key was made of stand at the front of its storage. -/
@[simp] theorem content_ofFixed (bytes : FixedBytes kind.size) :
    (ofFixed bytes).content = bytes :=
  bytes.resize_resize kind.size_le_storageSize

/-- The bytes of a key that fills its storage are all of it. -/
theorem bytes_content (h : kind.storageSize ≤ kind.size) (key : Key kind) :
    key.content.bytes = key.storage.bytes := by
  rw [content, key.storage.bytes_resize_of_le kind.size_le_storageSize,
    List.take_of_length_le (by rw [key.storage.length_eq]; exact h)]

/-- A key that was not destroyed reads as the front of its storage. -/
theorem read_of_live {key : Key kind} (h : key.destroyed = false) :
    key.read = .ok key.content := by
  rw [read, h]
  rfl

/-- A key that was destroyed reads as an error that names its kind. -/
theorem read_of_destroyed {key : Key kind} (h : key.destroyed = true) :
    key.read = .error (.keyDestroyed kind.name) := by
  rw [read, h]
  rfl

/-- A key is made of a byte string exactly when it is the new key with these bytes. -/
theorem ofBytes_eq_ok_iff {bytes : Bytes} {key : Key kind} :
    ofBytes kind bytes = .ok key ↔
      ∃ fixed : FixedBytes kind.size, fixed.bytes = bytes ∧ ofFixed fixed = key := by
  unfold ofBytes
  split
  · rename_i fixed hfixed
    have hbytes := FixedBytes.ofBytes?_eq_some_iff.mp hfixed
    subst hbytes
    refine ⟨?_, ?_⟩
    · intro h
      exact ⟨fixed, rfl, Except.ok.inj h⟩
    · intro h
      obtain ⟨other, hother, rfl⟩ := h
      rw [FixedBytes.ext hother]
  · rename_i hnone
    refine ⟨?_, ?_⟩
    · intro h
      exact absurd h (by simp)
    · intro h
      obtain ⟨fixed, rfl, -⟩ := h
      exact absurd hnone (by simp)

end Key

end AgeFile
