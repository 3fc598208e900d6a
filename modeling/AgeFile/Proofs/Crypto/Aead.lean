import AgeFile.Crypto.Aead

/-!
# Opening what was sealed

Read `open?_eq_some_iff` first: under one key and one nonce, a message opens as a plaintext exactly
when the plaintext is sealed as that message. The key stream does not depend on the message, so
combining with it a second time gives the plaintext back (`open?_of_seal?`); the tag that is found
has to be the one that sealing makes, so nothing else opens (`seal?_of_open?`).
-/

namespace AgeFile.Aead

variable {key : FixedBytes ChaCha20.keySize} {nonce : FixedBytes ChaCha20.nonceSize}
  {plaintext message : Bytes}

/-- Encrypting keeps the length. -/
@[simp] theorem length_crypt : (crypt key nonce plaintext).length = plaintext.length :=
  ChaCha20.length_xorStream key nonce 1 plaintext

/-- A message is sealed exactly when it is not too long, as its ciphertext and tag. -/
theorem seal?_eq_some_iff : seal? key nonce plaintext = some message ↔
    isTooLong plaintext = false ∧ message =
      crypt key nonce plaintext ++ (tag key nonce (crypt key nonce plaintext)).bytes := by
  unfold seal?
  cases isTooLong plaintext with
  | true => simp
  | false => simp [eq_comm]

/-- A sealed message is longer by its tag. -/
theorem length_of_seal? (h : seal? key nonce plaintext = some message) :
    message.length = plaintext.length + tagSize := by
  obtain ⟨-, rfl⟩ := seal?_eq_some_iff.mp h
  rw [List.length_append, length_crypt, FixedBytes.length_eq]

/-- A sealed message opens as its plaintext. -/
theorem open?_of_seal? (h : seal? key nonce plaintext = some message) :
    open? key nonce message = some plaintext := by
  have hlength := length_of_seal? h
  obtain ⟨hsize, rfl⟩ := seal?_eq_some_iff.mp h
  have hshort : ¬ plaintext.length + tagSize < tagSize := by omega
  have hsize' : isTooLong (crypt key nonce plaintext) = false := by
    rw [isTooLong, length_crypt]
    exact hsize
  rw [open?, hlength, if_neg hshort, Nat.add_sub_cancel, ← length_crypt, List.take_left,
    List.drop_left]
  simp only [hsize', Bool.false_eq_true, if_false, if_true]
  rw [crypt, crypt, ChaCha20.xorStream_xorStream]

/-- A message that opens is what its plaintext is sealed as. -/
theorem seal?_of_open? (h : open? key nonce message = some plaintext) :
    seal? key nonce plaintext = some message := by
  rw [open?] at h
  dsimp only at h
  have hsplit := List.take_append_drop (message.length - tagSize) message
  generalize message.take (message.length - tagSize) = ciphertext at h hsplit
  generalize message.drop (message.length - tagSize) = found at h hsplit
  split at h
  · exact absurd h (by simp)
  split at h
  · exact absurd h (by simp)
  rename_i hsize
  split at h
  · rename_i htag
    obtain rfl := Option.some.inj h
    have hcrypt : crypt key nonce (crypt key nonce ciphertext) = ciphertext :=
      ChaCha20.xorStream_xorStream key nonce 1 ciphertext
    refine seal?_eq_some_iff.mpr ⟨?_, ?_⟩
    · rw [isTooLong, length_crypt]
      exact Bool.eq_false_iff.mpr hsize
    · rw [hcrypt, htag, hsplit]
  · exact absurd h (by simp)

/-- A message opens as a plaintext exactly when the plaintext is sealed as that message. -/
theorem open?_eq_some_iff : open? key nonce message = some plaintext ↔
    seal? key nonce plaintext = some message :=
  ⟨seal?_of_open?, open?_of_seal?⟩

end AgeFile.Aead
