import AgeFile.KeySchedule
import AgeFile.Proofs.Except

/-!
# What keys derive

A key that can be read derives what HKDF-SHA-256 says, and one that was destroyed derives nothing.
Read `deriveKey_of_live` first: the single block that is computed here is the general derivation to
32 bytes. `headerKey_of_live` and `payloadKey_of_live` are its two uses on a file key. Every
operation refuses a key that was destroyed by naming its kind. `RefusesNoLength` says of an
operation that it never refuses the length of a key.
-/

namespace AgeFile

namespace Key

variable {kind : KeyKind} {key : Key kind}

/-- Keys that were not destroyed are equal when their bytes are. -/
theorem eq_of_live {other : Key kind} (h : key.destroyed = false) (hother : other.destroyed = false)
    (hbytes : key.storage.bytes = other.storage.bytes) : key = other := by
  obtain ⟨storage, destroyed⟩ := key
  obtain ⟨otherStorage, otherDestroyed⟩ := other
  subst h
  subst hother
  have hstorage : storage = otherStorage := FixedBytes.ext hbytes
  rw [hstorage]

/-- A key that fills its storage and was not destroyed is the new key with its bytes. -/
theorem ofFixed_content (hsize : kind.storageSize ≤ kind.size) (h : key.destroyed = false) :
    ofFixed key.content = key :=
  eq_of_live rfl h (congrArg FixedBytes.bytes (key.storage.resize_resize hsize))

/-- A key reads as the front of its storage, and only if it was not destroyed. -/
theorem read_eq_ok_iff {bytes : FixedBytes kind.size} :
    key.read = .ok bytes ↔ key.destroyed = false ∧ key.content = bytes := by
  cases hlive : key.destroyed with
  | true => simp [read_of_destroyed hlive]
  | false => simp [read_of_live hlive]

/-- A key is made of bytes that are as many as its kind has. -/
theorem ofBytes_bytes (kind : KeyKind) (bytes : FixedBytes kind.size) :
    ofBytes kind bytes.bytes = .ok (ofFixed bytes) :=
  ofBytes_eq_ok_iff.mpr ⟨bytes, rfl, rfl⟩

/-- A key that fills its storage is made of exactly its bytes. -/
theorem ofBytes_eq_ok_iff_content (hsize : kind.storageSize ≤ kind.size) {bytes : Bytes} :
    ofBytes kind bytes = .ok key ↔ key.destroyed = false ∧ key.content.bytes = bytes := by
  rw [ofBytes_eq_ok_iff]
  refine ⟨?_, ?_⟩
  · intro h
    obtain ⟨fixed, rfl, rfl⟩ := h
    exact ⟨rfl, congrArg FixedBytes.bytes (content_ofFixed fixed)⟩
  · intro h
    obtain ⟨hlive, rfl⟩ := h
    exact ⟨key.content, rfl, ofFixed_content hsize hlive⟩

variable {context : MacContext} {macKey : MacKey context}

/-- A tag under a key that was not destroyed is the HMAC under its bytes. -/
theorem tag_of_live (h : macKey.destroyed = false) (data : Bytes) :
    macKey.tag data = .ok (Hmac.tag macKey.content.bytes data) := by
  rw [tag, read_of_live h]
  rfl

/-- A tag is checked against the HMAC under the bytes of a key that was not destroyed. -/
theorem verifyTag_of_live (h : macKey.destroyed = false) (data tag : Bytes) :
    macKey.verifyTag data tag = .ok ((Hmac.tag macKey.content.bytes data).bytes == tag) := by
  rw [verifyTag, read_of_live h]
  rfl

end Key

/-- Deriving 32 bytes takes one output block. -/
theorem Hkdf.derive_block (material salt info : Bytes) :
    Hkdf.derive material salt info Sha256.digestSize =
      (Hmac.tag (Hmac.tag salt material).bytes (info ++ [1])).bytes := by
  have hblock : outputBlocks (extract salt material) info 1 1 [] =
      (Hmac.tag (Hmac.tag salt material).bytes (info ++ [1])).bytes := List.append_nil _
  rw [derive, expand]
  show (outputBlocks (extract salt material) info 1 1 []).take Sha256.digestSize = _
  rw [hblock, List.take_of_length_le (Nat.le_of_eq (FixedBytes.length_eq _))]

variable {context : MacContext}

/-- A salt that was not destroyed derives the 32 bytes of the general derivation. -/
theorem deriveKey_of_live (material : Bytes) (salt : MacKey context) (info : Bytes)
    (h : salt.destroyed = false) :
    ∃ key, deriveKey material salt info = .ok key ∧ key.destroyed = false ∧
      key.storage.bytes = Hkdf.derive material salt.content.bytes info Format.cipherKeySize := by
  refine ⟨Key.ofFixed (Hmac.tag (Hmac.tag salt.content.bytes material).bytes (info ++ [1])), ?_,
    rfl, ?_⟩
  · rw [deriveKey, Key.extract, Key.tag_of_live h, ok_bind, pure_eq_ok, ok_bind, Key.expand,
      Key.tag_of_live rfl, Key.content_ofFixed]
    rfl
  · rw [← Key.bytes_content (Nat.le_refl _), Key.content_ofFixed]
    exact (Hkdf.derive_block material salt.content.bytes info).symm

variable {fileKey : FileKey}

/-- A file key that was not destroyed reads as its storage. -/
theorem FileKey.exists_read (h : fileKey.destroyed = false) :
    ∃ bytes, fileKey.read = .ok bytes ∧ bytes.bytes = fileKey.storage.bytes :=
  ⟨_, Key.read_of_live h, Key.bytes_content (Nat.le_refl _) fileKey⟩

/-- The header key of a file key that was not destroyed is derived without a salt. -/
theorem headerKey_of_live (h : fileKey.destroyed = false) :
    ∃ key, headerKey fileKey = .ok key ∧ key.destroyed = false ∧
      key.content.bytes = Hkdf.derive fileKey.storage.bytes
        (List.replicate Sha256.digestSize 0) (ascii "header") Sha256.digestSize := by
  obtain ⟨material, hread, hmaterial⟩ := FileKey.exists_read h
  obtain ⟨derived, hderive, hlive, hbytes⟩ :=
    deriveKey_of_live material.bytes Key.zeroSalt Format.headerKeyInfo rfl
  refine ⟨Key.ofFixed derived.content, ?_, rfl, ?_⟩
  · rw [headerKey, hread, ok_bind, hderive, ok_bind, Key.read_of_live hlive]
    rfl
  · rw [Key.content_ofFixed, Key.bytes_content (Nat.le_refl _), hbytes, hmaterial, Key.zeroSalt,
      Key.content_ofFixed]
    rfl

/-- The payload key of a file key that was not destroyed is derived with the nonce as the salt. -/
theorem payloadKey_of_live (h : fileKey.destroyed = false)
    (nonce : FixedBytes Format.payloadNonceSize) :
    ∃ key, payloadKey fileKey nonce = .ok key ∧ key.destroyed = false ∧
      key.storage.bytes = Hkdf.derive fileKey.storage.bytes nonce.bytes (ascii "payload")
        Format.cipherKeySize := by
  obtain ⟨material, hread, hmaterial⟩ := FileKey.exists_read h
  obtain ⟨derived, hderive, hlive, hbytes⟩ :=
    deriveKey_of_live material.bytes (Key.ofFixed nonce : MacKey .nonce) Format.payloadKeyInfo rfl
  refine ⟨derived, ?_, hlive, ?_⟩
  · rw [payloadKey, hread, ok_bind, hderive]
  · rw [hbytes, Key.content_ofFixed, hmaterial]
    rfl

/-- The payload key is the one that is derived, and no other. -/
theorem payloadKey_eq_ok_iff (h : fileKey.destroyed = false)
    {nonce : FixedBytes Format.payloadNonceSize} {payload : CipherKey} :
    payloadKey fileKey nonce = .ok payload ↔ payload.destroyed = false ∧
      payload.storage.bytes = Hkdf.derive fileKey.storage.bytes nonce.bytes (ascii "payload")
        Format.cipherKeySize := by
  obtain ⟨derived, hderive, hlive, hbytes⟩ := payloadKey_of_live h nonce
  rw [hderive]
  refine ⟨?_, ?_⟩
  · intro hsame
    obtain rfl := Except.ok.inj hsame
    exact ⟨hlive, hbytes⟩
  · intro hpayload
    exact congrArg _ (Key.eq_of_live hlive hpayload.1 (hbytes.trans hpayload.2.symm))

/-! ## Destroyed keys -/

/-- A key that was destroyed makes no tag. -/
theorem Key.tag_of_destroyed {macKey : MacKey context} (h : macKey.destroyed = true)
    (data : Bytes) : macKey.tag data = .error (.keyDestroyed context.name) := by
  rw [tag, read_of_destroyed h]
  rfl

/-- A key that was destroyed checks no tag. -/
theorem Key.verifyTag_of_destroyed {macKey : MacKey context} (h : macKey.destroyed = true)
    (data tag : Bytes) : macKey.verifyTag data tag = .error (.keyDestroyed context.name) := by
  rw [verifyTag, read_of_destroyed h]
  rfl

/-- A salt that was destroyed extracts no key. -/
theorem Key.extract_of_destroyed {salt : MacKey context} (h : salt.destroyed = true)
    (material : Bytes) : salt.extract material = .error (.keyDestroyed context.name) := by
  rw [extract, tag_of_destroyed h]
  rfl

/-- A pseudorandom key that was destroyed has no output block. -/
theorem Key.expand_of_destroyed {key : MacKey context} (h : key.destroyed = true) (info : Bytes) :
    key.expand info = .error (.keyDestroyed context.name) :=
  tag_of_destroyed h (info ++ [1])

/-- A salt that was destroyed derives no key. -/
theorem deriveKey_of_destroyed {salt : MacKey context} (h : salt.destroyed = true)
    (material info : Bytes) :
    deriveKey material salt info = .error (.keyDestroyed context.name) := by
  rw [deriveKey, Key.extract_of_destroyed h]
  rfl

/-- A file key that was destroyed has no header key. -/
theorem headerKey_of_destroyed (h : fileKey.destroyed = true) :
    headerKey fileKey = .error (.keyDestroyed "file key") := by
  rw [headerKey, Key.read_of_destroyed h]
  rfl

/-- A file key that was destroyed has no payload key. -/
theorem payloadKey_of_destroyed (h : fileKey.destroyed = true)
    (nonce : FixedBytes Format.payloadNonceSize) :
    payloadKey fileKey nonce = .error (.keyDestroyed "file key") := by
  rw [payloadKey, Key.read_of_destroyed h]
  rfl

/-! ## Lengths -/

/-- A computation does not end by refusing the length of a key. -/
def RefusesNoLength {α : Type} (result : Except Error α) : Prop :=
  ∀ kind expected actual, result ≠ .error (.invalidKeyLength kind expected actual)

/-- A computation that succeeds refuses nothing. -/
theorem refusesNoLength_ok {α : Type} (a : α) : RefusesNoLength (.ok a) := by
  intro kind expected actual
  simp

/-- A sequence refuses no length if its first part refuses none, and the second none on what the
first one comes to. -/
theorem RefusesNoLength.bind {α β : Type} {x : Except Error α} {f : α → Except Error β}
    (h : RefusesNoLength x) (hnext : ∀ a, x = .ok a → RefusesNoLength (f a)) :
    RefusesNoLength (x >>= f) := by
  intro kind expected actual hrefused
  rcases bind_eq_error_iff.mp hrefused with hfirst | ⟨a, ha, hsecond⟩
  · exact h kind expected actual hfirst
  · exact hnext a ha kind expected actual hsecond

namespace Key

variable {kind : KeyKind}

/-- Reading a key does not look at its length. -/
theorem read_refusesNoLength (key : Key kind) : RefusesNoLength key.read := by
  intro other expected actual
  cases hlive : key.destroyed with
  | true => simp [read_of_destroyed hlive]
  | false => simp [read_of_live hlive]

/-- Bytes that are as many as a kind of key has are not refused. -/
theorem ofBytes_refusesNoLength {bytes : Bytes} (h : bytes.length = kind.size) :
    RefusesNoLength (ofBytes kind bytes) := by
  have hmade : ofBytes kind bytes = .ok _ := ofBytes_bytes kind ⟨bytes, h⟩
  rw [hmade]
  exact refusesNoLength_ok _

end Key

end AgeFile
