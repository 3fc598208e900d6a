import AgeFile.Chunk.Stream
import AgeFile.Proofs.Cipher.Wrapping
import Mathlib.Data.Set.Function

/-!
# What opens is what was sealed

Opening accepts the messages that sealing makes and no others. Read `OpensExactly` first: it says
this of any two operations. The two contexts of a key and a nonce are such a pair, and so are
sealing and opening a chunk (`create_opensExactly`). For file keys, which all have the length that
the cipher expects, sealing never fails, so wrapping is a bijection onto what unwrapping accepts
(`wrapFileKey_bijOn`).
-/

namespace AgeFile

/-- One operation opens exactly what the other one seals. -/
structure OpensExactly (sealing opening : Bytes → Except Error Bytes) : Prop where
  /-- A message opens as a plaintext exactly when the plaintext is sealed as that message. -/
  opens_iff : ∀ plaintext message,
    opening message = .ok plaintext ↔ sealing plaintext = .ok message
  /-- A plaintext is sealed exactly when it is not too long for the cipher. -/
  seals_iff : ∀ plaintext,
    (∃ message, sealing plaintext = .ok message) ↔ Aead.isTooLong plaintext = false
  /-- A sealed message is longer by its tag. -/
  length_eq : ∀ plaintext message,
    sealing plaintext = .ok message → message.length = plaintext.length + 16
  /-- Every other message is refused in one way, and there is no plaintext of it. -/
  refuses : ∀ message, (∀ plaintext, sealing plaintext ≠ .ok message) →
    opening message = .error .decryptionFailed

/-- A message that is shorter than a tag is refused. -/
theorem OpensExactly.refuses_of_short {sealing opening : Bytes → Except Error Bytes}
    (h : OpensExactly sealing opening) {message : Bytes} (hshort : message.length < 16) :
    opening message = .error .decryptionFailed := by
  refine h.refuses message ?_
  intro plaintext hsealed
  have hlength := h.length_eq plaintext message hsealed
  omega

/-! ## Contexts -/

namespace CipherContext

/-- A context for decryption decrypts or fails in one way. -/
theorem decrypt_ok_or_error (key : FixedBytes Format.cipherKeySize) (nonce : Nonce)
    (message : Bytes) : (∃ plaintext, decrypt ⟨key, nonce, .decrypt⟩ message = .ok plaintext) ∨
      decrypt ⟨key, nonce, .decrypt⟩ message = .error .decryptionFailed := by
  rw [decrypt]
  cases Aead.open? key nonce message with
  | none => exact Or.inr rfl
  | some opened => exact Or.inl ⟨opened, rfl⟩

/-- Making a context does not look at the length of its key. -/
theorem create_refusesNoLength (key : CipherKey) (nonce : Nonce) (direction : Direction) :
    RefusesNoLength (create key nonce direction) :=
  key.read_refusesNoLength.bind fun _ _ => refusesNoLength_ok _

/-- Encrypting does not refuse the length of a key, however it fails. -/
theorem encrypt_refusesNoLength (context : CipherContext) (plaintext : Bytes) :
    RefusesNoLength (context.encrypt plaintext) := by
  intro kind expected actual
  rw [encrypt]
  split
  · simp
  · split <;> simp

/-- Decrypting does not refuse the length of a key, however it fails. -/
theorem decrypt_refusesNoLength (context : CipherContext) (message : Bytes) :
    RefusesNoLength (context.decrypt message) := by
  intro kind expected actual
  rw [decrypt]
  split
  · simp
  · split <;> simp

/-- The two contexts of one key and one nonce open exactly what they seal. -/
theorem opensExactly (key : FixedBytes Format.cipherKeySize) (nonce : Nonce) :
    OpensExactly (encrypt ⟨key, nonce, .encrypt⟩) (decrypt ⟨key, nonce, .decrypt⟩) where
  opens_iff plaintext message := by
    rw [decrypt_eq_ok_iff, encrypt_eq_ok_iff, Aead.open?_eq_some_iff]
  seals_iff plaintext := by
    refine ⟨?_, ?_⟩
    · intro h
      obtain ⟨message, hsealed⟩ := h
      exact (Aead.seal?_eq_some_iff.mp (encrypt_eq_ok_iff.mp hsealed)).1
    · intro hsize
      exact ⟨_, encrypt_eq_ok_iff.mpr (Aead.seal?_eq_some_iff.mpr ⟨hsize, rfl⟩)⟩
  length_eq plaintext message hsealed := Aead.length_of_seal? (encrypt_eq_ok_iff.mp hsealed)
  refuses message hnone := by
    rcases decrypt_ok_or_error key nonce message with ⟨plaintext, hopened⟩ | hrefused
    · have hseal := Aead.open?_eq_some_iff.mp (decrypt_eq_ok_iff.mp hopened)
      exact absurd (encrypt_eq_ok_iff.mpr hseal) (hnone plaintext)
    · exact hrefused

end CipherContext

/-! ## Chunks -/

/-- Sealing and opening a chunk at one position, under a key that was not destroyed, open exactly
what they seal. -/
theorem sealChunk_opensExactly {key : CipherKey} (hlive : key.destroyed = false)
    (nonce : ChunkNonce) : OpensExactly (sealChunk key nonce) (openChunk key nonce) := by
  have hseal : sealChunk key nonce =
      CipherContext.encrypt ⟨key.content, nonce.toNonce, .encrypt⟩ := by
    funext plaintext
    rw [sealChunk, CipherContext.create_of_live hlive, ok_bind]
  have hopen : openChunk key nonce =
      CipherContext.decrypt ⟨key.content, nonce.toNonce, .decrypt⟩ := by
    funext message
    rw [openChunk, CipherContext.create_of_live hlive, ok_bind]
  rw [hseal, hopen]
  exact CipherContext.opensExactly key.content nonce.toNonce

/-- Under a key that was not destroyed, the two contexts of a nonce open exactly what they seal, and
so do sealing and opening a chunk at its position. Messages that are shorter than a tag are refused.
A context that is used the other way names the direction that it has, whatever it is given. -/
theorem create_opensExactly {key : CipherKey} (hlive : key.destroyed = false) :
    (∀ nonce, ∃ sealer opener, CipherContext.create key nonce .encrypt = .ok sealer ∧
      CipherContext.create key nonce .decrypt = .ok opener ∧
      OpensExactly sealer.encrypt opener.decrypt ∧
      (∀ message, message.length < 16 → opener.decrypt message = .error .decryptionFailed) ∧
      ∀ data, sealer.decrypt data = .error (.wrongDirection "encryption") ∧
        opener.encrypt data = .error (.wrongDirection "decryption")) ∧
    ∀ nonce : ChunkNonce, OpensExactly (sealChunk key nonce) (openChunk key nonce) ∧
      ∀ message, message.length < 16 → openChunk key nonce message = .error .decryptionFailed := by
  have hchunks := sealChunk_opensExactly hlive
  refine ⟨?_, fun nonce => ⟨hchunks nonce, fun _ => (hchunks nonce).refuses_of_short⟩⟩
  intro nonce
  have hcontexts := CipherContext.opensExactly key.content nonce
  exact ⟨_, _, CipherContext.create_of_live hlive nonce .encrypt,
    CipherContext.create_of_live hlive nonce .decrypt, hcontexts,
    fun _ => hcontexts.refuses_of_short, fun _ => ⟨rfl, rfl⟩⟩

/-- Under a key of zeros, an empty chunk is sealed as a tag, which opens as an empty chunk at the
same position. One byte less does not open. -/
theorem create_opensExactly_emptyChunk :
    (Key.ofFixed (FixedBytes.zero _) : CipherKey).destroyed = false ∧
      ∃ message, message.length = 16 ∧
        sealChunk (Key.ofFixed (FixedBytes.zero _)) ChunkNonce.zero [] = .ok message ∧
        openChunk (Key.ofFixed (FixedBytes.zero _)) ChunkNonce.zero message = .ok [] ∧
        openChunk (Key.ofFixed (FixedBytes.zero _)) ChunkNonce.zero (message.take 15) =
          .error .decryptionFailed := by
  have hlive : (Key.ofFixed (FixedBytes.zero _) : CipherKey).destroyed = false := rfl
  obtain ⟨hexact, hshort⟩ := (create_opensExactly hlive).2 ChunkNonce.zero
  obtain ⟨message, hsealed⟩ := (hexact.seals_iff []).mpr rfl
  have hlength := hexact.length_eq [] message hsealed
  refine ⟨hlive, message, hlength, hsealed, (hexact.opens_iff [] message).mpr hsealed, ?_⟩
  refine hshort (message.take 15) ?_
  rw [List.length_take]
  omega

/-! ## Wrapped file keys -/

variable {wrapKey : CipherKey} {fileKey : FileKey} {wrapped : EncryptedFileKey}

/-- What opens of an encrypted file key is as long as a file key. -/
theorem length_of_open? {key : FixedBytes Format.cipherKeySize} {nonce : Nonce}
    {bytes : FixedBytes Format.encryptedFileKeySize} {plaintext : Bytes}
    (h : Aead.open? key nonce bytes.bytes = some plaintext) :
    plaintext.length = Format.fileKeySize := by
  have hlength := Aead.length_of_seal? (Aead.seal?_of_open? h)
  rw [bytes.length_eq] at hlength
  exact (Nat.add_right_cancel hlength).symm

/-- Unwrapping fails in one way if no key was destroyed. -/
theorem unwrapFileKey_ok_or_error (hwrap : wrapKey.destroyed = false)
    (hwrapped : wrapped.destroyed = false) :
    (∃ fileKey, unwrapFileKey wrapKey wrapped = .ok fileKey) ∨
      unwrapFileKey wrapKey wrapped = .error .decryptionFailed := by
  rcases CipherContext.decrypt_ok_or_error wrapKey.content (FixedBytes.zero _)
    wrapped.content.bytes with ⟨plaintext, hopened⟩ | hrefused
  · have hopen := CipherContext.decrypt_eq_ok_iff.mp hopened
    refine Or.inl ⟨Key.ofFixed ⟨plaintext, length_of_open? hopen⟩, ?_⟩
    refine unwrapFileKey_eq_ok_iff.mpr ⟨hwrap, rfl, hwrapped, ?_⟩
    rw [Key.content_ofFixed]
    exact hopen
  · refine Or.inr ?_
    rw [unwrapFileKey, CipherContext.create_of_live hwrap, ok_bind, Key.read_of_live hwrapped,
      ok_bind, hrefused]
    rfl

/-- What each file key is wrapped as is a function of the file key. -/
theorem exists_wrap (hwrap : wrapKey.destroyed = false) : ∃ wrap : FileKey → EncryptedFileKey,
    ∀ fileKey, fileKey.destroyed = false → wrapFileKey wrapKey fileKey = .ok (wrap fileKey) := by
  have hall : ∀ fileKey : FileKey, ∃ wrapped, fileKey.destroyed = false →
      wrapFileKey wrapKey fileKey = .ok wrapped := by
    intro fileKey
    cases hfile : fileKey.destroyed with
    | true => exact ⟨Key.ofFixed (FixedBytes.zero _), by simp⟩
    | false =>
        obtain ⟨wrapped, hwrapped, -⟩ := exists_wrapFileKey hwrap hfile
        exact ⟨wrapped, fun _ => hwrapped⟩
  exact Classical.skolem.mp hall

/-- The function that says what each file key is wrapped as is a bijection onto what unwraps. -/
theorem bijOn_of_wraps {wrap : FileKey → EncryptedFileKey}
    (hwraps : ∀ fileKey, fileKey.destroyed = false →
      wrapFileKey wrapKey fileKey = .ok (wrap fileKey)) :
    Set.BijOn wrap {fileKey | fileKey.destroyed = false}
      {wrapped | ∃ fileKey, unwrapFileKey wrapKey wrapped = .ok fileKey} := by
  refine ⟨?_, ?_, ?_⟩
  · intro fileKey hfile
    exact ⟨fileKey, unwrapFileKey_eq_ok_iff_wrapFileKey.mpr (hwraps fileKey hfile)⟩
  · intro fileKey hfile other hother hsame
    have hfirst := unwrapFileKey_eq_ok_iff_wrapFileKey.mpr (hwraps fileKey hfile)
    have hsecond := unwrapFileKey_eq_ok_iff_wrapFileKey.mpr (hwraps other hother)
    rw [hsame, hsecond] at hfirst
    exact (Except.ok.inj hfirst).symm
  · intro wrapped hwrapped
    obtain ⟨fileKey, hfile⟩ := hwrapped
    have hlive := (unwrapFileKey_eq_ok_iff.mp hfile).2.1
    have hmade := unwrapFileKey_eq_ok_iff_wrapFileKey.mp hfile
    exact ⟨fileKey, hlive, Except.ok.inj ((hwraps fileKey hlive).symm.trans hmade)⟩

/-- Wrapping never refuses the length of a key: what is made of a file key has the length of an
encrypted one. -/
theorem wrapFileKey_refusesNoLength (wrapKey : CipherKey) (fileKey : FileKey) :
    RefusesNoLength (wrapFileKey wrapKey fileKey) := by
  refine (CipherContext.create_refusesNoLength wrapKey _ _).bind ?_
  intro sealer hsealer
  obtain ⟨-, rfl⟩ := CipherContext.create_eq_ok_iff.mp hsealer
  refine fileKey.read_refusesNoLength.bind ?_
  intro bytes _
  refine (CipherContext.encrypt_refusesNoLength _ _).bind ?_
  intro message hsealed
  refine Key.ofBytes_refusesNoLength ?_
  rw [Aead.length_of_seal? (CipherContext.encrypt_eq_ok_iff.mp hsealed), bytes.length_eq]

/-- Unwrapping never refuses the length of a key: what opens of an encrypted file key has the length
of a file key. -/
theorem unwrapFileKey_refusesNoLength (wrapKey : CipherKey) (wrapped : EncryptedFileKey) :
    RefusesNoLength (unwrapFileKey wrapKey wrapped) := by
  refine (CipherContext.create_refusesNoLength wrapKey _ _).bind ?_
  intro opener hopener
  obtain ⟨-, rfl⟩ := CipherContext.create_eq_ok_iff.mp hopener
  refine wrapped.read_refusesNoLength.bind ?_
  intro bytes _
  refine (CipherContext.decrypt_refusesNoLength _ _).bind ?_
  intro plaintext hopened
  exact Key.ofBytes_refusesNoLength (length_of_open? (CipherContext.decrypt_eq_ok_iff.mp hopened))

/-- Under a key that was not destroyed, an encrypted file key unwraps as a file key exactly when the
file key is wrapped as it. Every file key that was not destroyed is wrapped, as the 32 bytes that
the cipher makes of it with the zero nonce, and an encrypted file key that was not destroyed is
refused in one way, exactly if no file key is wrapped as it. So wrapping is a bijection from the
file keys onto what unwrapping accepts. The lengths that both operations check are always right. -/
theorem wrapFileKey_bijOn (hwrap : wrapKey.destroyed = false) :
    (∀ fileKey wrapped, unwrapFileKey wrapKey wrapped = .ok fileKey ↔
      wrapFileKey wrapKey fileKey = .ok wrapped) ∧
    (∀ fileKey : FileKey, fileKey.destroyed = false → ∃ sealer message wrapped,
      CipherContext.create wrapKey (FixedBytes.zero _) .encrypt = .ok sealer ∧
      sealer.encrypt fileKey.content.bytes = .ok message ∧ message.length = 32 ∧
      wrapFileKey wrapKey fileKey = .ok wrapped ∧ wrapped.destroyed = false ∧
      wrapped.content.bytes = message) ∧
    (∀ wrapped : EncryptedFileKey, wrapped.destroyed = false →
      ((∃ fileKey, unwrapFileKey wrapKey wrapped = .ok fileKey) ∨
        unwrapFileKey wrapKey wrapped = .error .decryptionFailed) ∧
      (unwrapFileKey wrapKey wrapped = .error .decryptionFailed ↔
        ∀ fileKey, wrapFileKey wrapKey fileKey ≠ .ok wrapped)) ∧
    (∃ wrap : FileKey → EncryptedFileKey,
      (∀ fileKey, fileKey.destroyed = false → wrapFileKey wrapKey fileKey = .ok (wrap fileKey)) ∧
      Set.BijOn wrap {fileKey | fileKey.destroyed = false}
        {wrapped | ∃ fileKey, unwrapFileKey wrapKey wrapped = .ok fileKey}) ∧
    ∀ fileKey wrapped, RefusesNoLength (wrapFileKey wrapKey fileKey) ∧
      RefusesNoLength (unwrapFileKey wrapKey wrapped) := by
  have hexact : ∀ fileKey wrapped, unwrapFileKey wrapKey wrapped = .ok fileKey ↔
      wrapFileKey wrapKey fileKey = .ok wrapped := fun _ _ => unwrapFileKey_eq_ok_iff_wrapFileKey
  refine ⟨hexact, ?_, ?_, ?_, ?_⟩
  · intro fileKey hfile
    obtain ⟨wrapped, hwrapped, hlive, -⟩ := exists_wrapFileKey hwrap hfile
    obtain ⟨-, -, -, hsealed⟩ := wrapFileKey_eq_ok_iff.mp hwrapped
    exact ⟨_, wrapped.content.bytes, wrapped, CipherContext.create_of_live hwrap _ _,
      CipherContext.encrypt_eq_ok_iff.mpr hsealed, wrapped.content.length_eq, hwrapped, hlive, rfl⟩
  · intro wrapped hwrapped
    have hcases := unwrapFileKey_ok_or_error hwrap hwrapped
    refine ⟨hcases, ?_, ?_⟩
    · intro hrefused fileKey hmade
      rw [(hexact fileKey wrapped).mpr hmade] at hrefused
      exact absurd hrefused (by simp)
    · intro hnone
      rcases hcases with ⟨fileKey, hfile⟩ | hrefused
      · exact absurd ((hexact fileKey wrapped).mp hfile) (hnone fileKey)
      · exact hrefused
  · obtain ⟨wrap, hwraps⟩ := exists_wrap hwrap
    exact ⟨wrap, hwraps, bijOn_of_wraps hwraps⟩
  · intro fileKey wrapped
    exact ⟨wrapFileKey_refusesNoLength wrapKey fileKey,
      unwrapFileKey_refusesNoLength wrapKey wrapped⟩

/-- Under a key of zeros, a file key of zeros is wrapped, and unwraps as itself. -/
theorem wrapFileKey_bijOn_zero :
    (Key.ofFixed (FixedBytes.zero _) : CipherKey).destroyed = false ∧
      ∃ wrapped,
        wrapFileKey (Key.ofFixed (FixedBytes.zero _)) (Key.ofFixed (FixedBytes.zero _)) =
          .ok wrapped ∧
        unwrapFileKey (Key.ofFixed (FixedBytes.zero _)) wrapped =
          .ok (Key.ofFixed (FixedBytes.zero _)) := by
  have hlive : (Key.ofFixed (FixedBytes.zero _) : CipherKey).destroyed = false := rfl
  obtain ⟨hexact, hwraps, -⟩ := wrapFileKey_bijOn hlive
  obtain ⟨-, -, wrapped, -, -, -, hwrapped, -⟩ := hwraps (Key.ofFixed (FixedBytes.zero _)) rfl
  exact ⟨hlive, wrapped, hwrapped, (hexact _ _).mpr hwrapped⟩

end AgeFile
