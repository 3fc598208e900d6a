import AgeFile.Cipher
import AgeFile.Proofs.Crypto.Aead
import AgeFile.Proofs.KeySchedule.Derivation

/-!
# Cipher contexts and wrapped file keys

A context holds the bytes of a key that can be read, and encrypts or decrypts with them. Read
`unwrapFileKey_eq_ok_iff_wrapFileKey` first: an encrypted file key unwraps as the file key that was
wrapped as it, and as no other. Under a key that can be read every file key is wrapped
(`exists_wrapFileKey`). Where a key was destroyed, the error names the one that is read first: the
wrapping key comes before the other.
-/

namespace AgeFile

namespace CipherContext

variable {key : CipherKey}

/-- A context of a key that was not destroyed holds the bytes of the key. -/
theorem create_of_live (h : key.destroyed = false) (nonce : Nonce) (direction : Direction) :
    create key nonce direction = .ok ⟨key.content, nonce, direction⟩ := by
  rw [create, Key.read_of_live h]
  rfl

/-- A context holds the bytes of its key, and there is one only if the key was not destroyed. -/
theorem create_eq_ok_iff {nonce : Nonce} {direction : Direction} {context : CipherContext} :
    create key nonce direction = .ok context ↔
      key.destroyed = false ∧ ⟨key.content, nonce, direction⟩ = context := by
  rw [create, bind_eq_ok_iff]
  refine ⟨?_, ?_⟩
  · intro h
    obtain ⟨bytes, hread, h⟩ := h
    obtain ⟨hlive, rfl⟩ := Key.read_eq_ok_iff.mp hread
    exact ⟨hlive, Except.ok.inj h⟩
  · intro h
    obtain ⟨hlive, rfl⟩ := h
    exact ⟨key.content, Key.read_of_live hlive, rfl⟩

/-- There is no context of a key that was destroyed. -/
theorem create_of_destroyed (h : key.destroyed = true) (nonce : Nonce) (direction : Direction) :
    create key nonce direction = .error (.keyDestroyed "cipher key") := by
  rw [create, Key.read_of_destroyed h]
  rfl

/-- A context for encryption makes what sealing makes. -/
theorem encrypt_eq_ok_iff {key : FixedBytes Format.cipherKeySize} {nonce : Nonce}
    {plaintext message : Bytes} : encrypt ⟨key, nonce, .encrypt⟩ plaintext = .ok message ↔
      Aead.seal? key nonce plaintext = some message := by
  rw [encrypt]
  cases Aead.seal? key nonce plaintext with
  | none => simp
  | some sealed => simp

/-- A context for decryption accepts what opens. -/
theorem decrypt_eq_ok_iff {key : FixedBytes Format.cipherKeySize} {nonce : Nonce}
    {plaintext message : Bytes} : decrypt ⟨key, nonce, .decrypt⟩ message = .ok plaintext ↔
      Aead.open? key nonce message = some plaintext := by
  rw [decrypt]
  cases Aead.open? key nonce message with
  | none => simp
  | some opened => simp

end CipherContext

variable {wrapKey : CipherKey} {fileKey : FileKey} {wrapped : EncryptedFileKey}

/-! ## What is wrapped -/

/-- A file key is wrapped as what its bytes are sealed as with the zero nonce, if no key was
destroyed. -/
theorem wrapFileKey_eq_ok_iff : wrapFileKey wrapKey fileKey = .ok wrapped ↔
    wrapKey.destroyed = false ∧ fileKey.destroyed = false ∧ wrapped.destroyed = false ∧
      Aead.seal? wrapKey.content (FixedBytes.zero _) fileKey.content.bytes =
        some wrapped.content.bytes := by
  refine ⟨?_, ?_⟩
  · intro h
    obtain ⟨context, hcontext, h⟩ := bind_eq_ok_iff.mp h
    obtain ⟨bytes, hread, h⟩ := bind_eq_ok_iff.mp h
    obtain ⟨message, hsealed, hmade⟩ := bind_eq_ok_iff.mp h
    obtain ⟨hwrap, rfl⟩ := CipherContext.create_eq_ok_iff.mp hcontext
    obtain ⟨hfile, rfl⟩ := Key.read_eq_ok_iff.mp hread
    obtain ⟨hwrapped, rfl⟩ := (Key.ofBytes_eq_ok_iff_content (by decide)).mp hmade
    exact ⟨hwrap, hfile, hwrapped, CipherContext.encrypt_eq_ok_iff.mp hsealed⟩
  · intro h
    obtain ⟨hwrap, hfile, hwrapped, hsealed⟩ := h
    rw [wrapFileKey, CipherContext.create_of_live hwrap, ok_bind, Key.read_of_live hfile, ok_bind,
      CipherContext.encrypt_eq_ok_iff.mpr hsealed, ok_bind]
    exact (Key.ofBytes_eq_ok_iff_content (by decide)).mpr ⟨hwrapped, rfl⟩

/-- An encrypted file key unwraps as what its bytes open as with the zero nonce, if no key was
destroyed. -/
theorem unwrapFileKey_eq_ok_iff : unwrapFileKey wrapKey wrapped = .ok fileKey ↔
    wrapKey.destroyed = false ∧ fileKey.destroyed = false ∧ wrapped.destroyed = false ∧
      Aead.open? wrapKey.content (FixedBytes.zero _) wrapped.content.bytes =
        some fileKey.content.bytes := by
  refine ⟨?_, ?_⟩
  · intro h
    obtain ⟨context, hcontext, h⟩ := bind_eq_ok_iff.mp h
    obtain ⟨bytes, hread, h⟩ := bind_eq_ok_iff.mp h
    obtain ⟨plaintext, hopened, hmade⟩ := bind_eq_ok_iff.mp h
    obtain ⟨hwrap, rfl⟩ := CipherContext.create_eq_ok_iff.mp hcontext
    obtain ⟨hwrapped, rfl⟩ := Key.read_eq_ok_iff.mp hread
    obtain ⟨hfile, rfl⟩ := (Key.ofBytes_eq_ok_iff_content (by decide)).mp hmade
    exact ⟨hwrap, hfile, hwrapped, CipherContext.decrypt_eq_ok_iff.mp hopened⟩
  · intro h
    obtain ⟨hwrap, hfile, hwrapped, hopened⟩ := h
    rw [unwrapFileKey, CipherContext.create_of_live hwrap, ok_bind, Key.read_of_live hwrapped,
      ok_bind, CipherContext.decrypt_eq_ok_iff.mpr hopened, ok_bind]
    exact (Key.ofBytes_eq_ok_iff_content (by decide)).mpr ⟨hfile, rfl⟩

/-- An encrypted file key unwraps as a file key exactly when the file key is wrapped as it. -/
theorem unwrapFileKey_eq_ok_iff_wrapFileKey :
    unwrapFileKey wrapKey wrapped = .ok fileKey ↔ wrapFileKey wrapKey fileKey = .ok wrapped := by
  rw [unwrapFileKey_eq_ok_iff, wrapFileKey_eq_ok_iff, Aead.open?_eq_some_iff]

/-- Whatever was wrapped unwraps as the file key under the same wrapping key. -/
theorem unwrapFileKey_of_wrapFileKey (h : wrapFileKey wrapKey fileKey = .ok wrapped) :
    wrapped.destroyed = false ∧ unwrapFileKey wrapKey wrapped = .ok fileKey := by
  obtain ⟨-, -, hwrapped, -⟩ := wrapFileKey_eq_ok_iff.mp h
  exact ⟨hwrapped, unwrapFileKey_eq_ok_iff_wrapFileKey.mpr h⟩

/-- A file key is short enough for the cipher. -/
theorem isTooLong_fileKey (bytes : FixedBytes Format.fileKeySize) :
    Aead.isTooLong bytes.bytes = false := by
  rw [Aead.isTooLong, bytes.length_eq]
  rfl

/-- Under a key that was not destroyed, every file key that was not is wrapped, and unwraps as
itself. -/
theorem exists_wrapFileKey (hwrap : wrapKey.destroyed = false)
    (hfile : fileKey.destroyed = false) :
    ∃ wrapped, wrapFileKey wrapKey fileKey = .ok wrapped ∧ wrapped.destroyed = false ∧
      unwrapFileKey wrapKey wrapped = .ok fileKey := by
  obtain ⟨message, hsealed⟩ : ∃ message,
      Aead.seal? wrapKey.content (FixedBytes.zero _) fileKey.content.bytes = some message :=
    ⟨_, Aead.seal?_eq_some_iff.mpr ⟨isTooLong_fileKey fileKey.content, rfl⟩⟩
  have hlength := Aead.length_of_seal? hsealed
  rw [fileKey.content.length_eq] at hlength
  have hwrapped : wrapFileKey wrapKey fileKey = .ok (Key.ofFixed ⟨message, hlength⟩) := by
    refine wrapFileKey_eq_ok_iff.mpr ⟨hwrap, hfile, rfl, ?_⟩
    rw [Key.content_ofFixed]
    exact hsealed
  exact ⟨_, hwrapped, rfl, unwrapFileKey_eq_ok_iff_wrapFileKey.mpr hwrapped⟩

/-! ## Destroyed keys -/

/-- Nothing is wrapped under a key that was destroyed. -/
theorem wrapFileKey_of_wrapKey_destroyed (h : wrapKey.destroyed = true) :
    wrapFileKey wrapKey fileKey = .error (.keyDestroyed "cipher key") := by
  rw [wrapFileKey, CipherContext.create_of_destroyed h]
  rfl

/-- A file key that was destroyed is not wrapped. -/
theorem wrapFileKey_of_fileKey_destroyed (hwrap : wrapKey.destroyed = false)
    (h : fileKey.destroyed = true) :
    wrapFileKey wrapKey fileKey = .error (.keyDestroyed "file key") := by
  rw [wrapFileKey, CipherContext.create_of_live hwrap, ok_bind, Key.read_of_destroyed h]
  rfl

/-- Nothing is unwrapped under a key that was destroyed. -/
theorem unwrapFileKey_of_wrapKey_destroyed (h : wrapKey.destroyed = true) :
    unwrapFileKey wrapKey wrapped = .error (.keyDestroyed "cipher key") := by
  rw [unwrapFileKey, CipherContext.create_of_destroyed h]
  rfl

/-- An encrypted file key that was destroyed is not unwrapped. -/
theorem unwrapFileKey_of_wrapped_destroyed (hwrap : wrapKey.destroyed = false)
    (h : wrapped.destroyed = true) :
    unwrapFileKey wrapKey wrapped = .error (.keyDestroyed "encrypted file key") := by
  rw [unwrapFileKey, CipherContext.create_of_live hwrap, ok_bind, Key.read_of_destroyed h]
  rfl

end AgeFile
