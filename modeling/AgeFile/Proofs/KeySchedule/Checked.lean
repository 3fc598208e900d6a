import AgeFile.Proofs.Crypto.Hkdf
import AgeFile.Proofs.KeySchedule.Derivation

/-!
# Deriving keys with checked lengths

A key carries its length in its type, so deriving keys cannot meet a wrong one. A key schedule that
hands byte strings around can: its implementation of HMAC may refuse a key for its length, and every
key that it makes of a byte string is checked. `Keying` is such a schedule. Read `AcceptsAll` first:
if HMAC accepts keys of every length, as it is defined to, then each operation comes to what is
derived without the checks (`deriveKey_eq`, `headerKey_eq`, `payloadKey_eq`), so none of them ever
fails. `AcceptsAll.derives_hkdf` says what is derived: HKDF-SHA-256 in its general form.
-/

namespace AgeFile

/-- How tags are keyed: a byte string is refused as a key, or gives a function that makes tags. -/
abbrev Keying := Bytes → Option (Bytes → FixedBytes Sha256.digestSize)

namespace Keying

variable {context : MacContext}

section
variable (keying : Keying)

/-- Keys of every length are accepted, and the tags are those of HMAC-SHA-256. -/
def AcceptsAll : Prop :=
  ∀ key, keying key = some (Hmac.tag key)

/-- The function that makes the tags of a key; a key that is not accepted is refused by its
length. -/
def tagger (key : MacKey context) : Except Error (Bytes → FixedBytes Sha256.digestSize) := do
  let bytes ← key.read
  match keying bytes.bytes with
  | some make => return make
  | none => throw (.invalidKeyLength context.name context.size bytes.bytes.length)

/-- Extract a pseudorandom key from keying material, and check its length. -/
def extract (salt : MacKey context) (material : Bytes) : Except Error (MacKey .extracted) := do
  let make ← keying.tagger salt
  Key.ofBytes (.mac .extracted) (make material).bytes

/-- The first output block of a pseudorandom key. -/
def expand (key : MacKey context) (info : Bytes) : Except Error (FixedBytes Sha256.digestSize) := do
  let make ← keying.tagger key
  return make (info ++ [1])

/-- Derive a cipher key from keying material, a salt and an info string. -/
def deriveKey (material : Bytes) (salt : MacKey context) (info : Bytes) :
    Except Error CipherKey := do
  let extracted ← keying.extract salt material
  let bytes ← keying.expand extracted info
  return Key.ofFixed bytes

/-- The key of the header MAC, with its length checked. -/
def headerKey (fileKey : FileKey) : Except Error (MacKey .header) := do
  let material ← fileKey.read
  let derived ← keying.deriveKey material.bytes Key.zeroSalt Format.headerKeyInfo
  let bytes ← derived.read
  Key.ofBytes (.mac .header) bytes.bytes

/-- The key of the payload; the length of the nonce is checked when it becomes a salt. -/
def payloadKey (fileKey : FileKey) (nonce : FixedBytes Format.payloadNonceSize) :
    Except Error CipherKey := do
  let salt ← Key.ofBytes (.mac .nonce) nonce.bytes
  let material ← fileKey.read
  keying.deriveKey material.bytes salt Format.payloadKeyInfo

end

variable {keying : Keying}

/-! ## No check fails -/

/-- A key is accepted whenever it can be read. -/
theorem AcceptsAll.tagger_eq (h : keying.AcceptsAll) (key : MacKey context) :
    keying.tagger key = key.read.map fun bytes => Hmac.tag bytes.bytes := by
  rw [tagger]
  cases key.read with
  | error e => rfl
  | ok bytes =>
      rw [ok_bind, h bytes.bytes]
      rfl

/-- Extracting makes a key of the right length. -/
theorem AcceptsAll.extract_eq (h : keying.AcceptsAll) (salt : MacKey context) (material : Bytes) :
    keying.extract salt material = salt.extract material := by
  rw [extract, h.tagger_eq, Key.extract, Key.tag]
  cases salt.read with
  | error e => rfl
  | ok bytes => exact Key.ofBytes_bytes (.mac .extracted) (Hmac.tag bytes.bytes material)

/-- Expanding comes to the same block. -/
theorem AcceptsAll.expand_eq (h : keying.AcceptsAll) (key : MacKey context) (info : Bytes) :
    keying.expand key info = key.expand info := by
  rw [expand, h.tagger_eq, Key.expand, Key.tag]
  cases key.read with
  | error e => rfl
  | ok bytes => rfl

/-- Deriving comes to the same key. -/
theorem AcceptsAll.deriveKey_eq (h : keying.AcceptsAll) (material : Bytes) (salt : MacKey context)
    (info : Bytes) :
    keying.deriveKey material salt info = AgeFile.deriveKey material salt info := by
  simp only [deriveKey, AgeFile.deriveKey, h.extract_eq, h.expand_eq]

/-- The header key is made of as many bytes as it has. -/
theorem AcceptsAll.headerKey_eq (h : keying.AcceptsAll) (fileKey : FileKey) :
    keying.headerKey fileKey = AgeFile.headerKey fileKey := by
  simp only [headerKey, AgeFile.headerKey, h.deriveKey_eq]
  refine bind_congr fun material => bind_congr fun derived => bind_congr fun bytes => ?_
  exact Key.ofBytes_bytes (.mac .header) bytes

/-- The nonce has as many bytes as a salt of its kind. -/
theorem AcceptsAll.payloadKey_eq (h : keying.AcceptsAll) (fileKey : FileKey)
    (nonce : FixedBytes Format.payloadNonceSize) :
    keying.payloadKey fileKey nonce = AgeFile.payloadKey fileKey nonce := by
  have hsalt : Key.ofBytes (.mac .nonce) nonce.bytes = .ok (Key.ofFixed nonce) :=
    Key.ofBytes_bytes (.mac .nonce) nonce
  rw [payloadKey, hsalt, ok_bind, AgeFile.payloadKey]
  simp only [h.deriveKey_eq]

/-! ## What is refused -/

/-- No key is refused for its length when tags are made. -/
theorem AcceptsAll.tagger_refusesNoLength (h : keying.AcceptsAll) (key : MacKey context) :
    RefusesNoLength (keying.tagger key) := by
  refine key.read_refusesNoLength.bind ?_
  intro bytes _
  rw [h bytes.bytes]
  exact refusesNoLength_ok _

/-- No key is refused for its length when one is extracted. -/
theorem AcceptsAll.extract_refusesNoLength (h : keying.AcceptsAll) (salt : MacKey context)
    (material : Bytes) : RefusesNoLength (keying.extract salt material) := by
  refine (h.tagger_refusesNoLength salt).bind ?_
  intro make _
  exact Key.ofBytes_refusesNoLength (make material).length_eq

/-- No key is refused for its length when one is derived. -/
theorem AcceptsAll.deriveKey_refusesNoLength (h : keying.AcceptsAll) (material : Bytes)
    (salt : MacKey context) (info : Bytes) :
    RefusesNoLength (keying.deriveKey material salt info) := by
  refine (h.extract_refusesNoLength salt material).bind ?_
  intro extracted _
  refine RefusesNoLength.bind ?_ fun bytes _ => refusesNoLength_ok _
  exact (h.tagger_refusesNoLength extracted).bind fun make _ => refusesNoLength_ok _

/-- No key is refused for its length when a header key is derived. -/
theorem AcceptsAll.headerKey_refusesNoLength (h : keying.AcceptsAll) (fileKey : FileKey) :
    RefusesNoLength (keying.headerKey fileKey) := by
  refine fileKey.read_refusesNoLength.bind ?_
  intro material _
  refine (h.deriveKey_refusesNoLength _ _ _).bind ?_
  intro derived _
  refine derived.read_refusesNoLength.bind ?_
  intro bytes _
  exact Key.ofBytes_refusesNoLength bytes.length_eq

/-- No key is refused for its length when a payload key is derived. -/
theorem AcceptsAll.payloadKey_refusesNoLength (h : keying.AcceptsAll) (fileKey : FileKey)
    (nonce : FixedBytes Format.payloadNonceSize) :
    RefusesNoLength (keying.payloadKey fileKey nonce) := by
  refine (Key.ofBytes_refusesNoLength nonce.length_eq).bind ?_
  intro salt _
  refine fileKey.read_refusesNoLength.bind ?_
  intro material _
  exact h.deriveKey_refusesNoLength _ _ _

/-! ## What is derived -/

/-- Where HMAC accepts keys of every length, a salt of any context that was not destroyed derives,
with its own bytes and no others, the first 32 bytes that HKDF-SHA-256 gives for these bytes,
however many are asked for. A salt that is made of a byte string of the right length has these
bytes. So the header key of a file key that was not destroyed is HKDF without a salt and with the
info `header`, and its payload key is HKDF with the nonce as the salt and with the info `payload`.
The checks of lengths change nothing, and none of them ever fails, also if keys were destroyed. -/
theorem AcceptsAll.derives_hkdf (h : keying.AcceptsAll) :
    (∀ (context : MacContext) (salt : MacKey context) (material info : Bytes),
      salt.destroyed = false →
      ∃ key, keying.deriveKey material salt info = .ok key ∧
        AgeFile.deriveKey material salt info = .ok key ∧ key.destroyed = false ∧
        key.content.bytes = Hkdf.derive material salt.content.bytes info 32 ∧
        ∀ length, 32 ≤ length → key.content.bytes =
          (Hkdf.derive material salt.content.bytes info length).take 32) ∧
    (∀ (context : MacContext) (bytes : Bytes), bytes.length = context.size →
      ∃ salt, Key.ofBytes (.mac context) bytes = .ok salt ∧ salt.destroyed = false ∧
        salt.content.bytes = bytes) ∧
    (∀ fileKey : FileKey, fileKey.destroyed = false →
      (∃ key : MacKey .header, keying.headerKey fileKey = .ok key ∧
        AgeFile.headerKey fileKey = .ok key ∧ key.destroyed = false ∧
        key.content.bytes =
          Hkdf.derive fileKey.content.bytes Hkdf.noSalt (ascii "header") 32) ∧
      ∀ nonce, ∃ key, keying.payloadKey fileKey nonce = .ok key ∧
        AgeFile.payloadKey fileKey nonce = .ok key ∧ key.destroyed = false ∧
        key.content.bytes =
          Hkdf.derive fileKey.content.bytes nonce.bytes (ascii "payload") 32) ∧
    (∀ (context : MacContext) (key : MacKey context) (material info : Bytes),
      RefusesNoLength (keying.tagger key) ∧ RefusesNoLength (keying.extract key material) ∧
        RefusesNoLength (keying.deriveKey material key info)) ∧
    ∀ fileKey nonce, RefusesNoLength (keying.headerKey fileKey) ∧
      RefusesNoLength (keying.payloadKey fileKey nonce) := by
  refine ⟨?_, ?_, ?_, ?_, ?_⟩
  · intro context salt material info hlive
    obtain ⟨key, hderive, hkey, hbytes⟩ := deriveKey_of_live material salt info hlive
    rw [← Key.bytes_content (Nat.le_refl _)] at hbytes
    refine ⟨key, (h.deriveKey_eq material salt info).trans hderive, hderive, hkey, hbytes, ?_⟩
    intro length hlength
    rw [hbytes, Hkdf.take_derive _ _ _ hlength]
  · intro context bytes hlength
    exact ⟨_, Key.ofBytes_bytes (.mac context) ⟨bytes, hlength⟩, rfl,
      congrArg FixedBytes.bytes (Key.content_ofFixed _)⟩
  · intro fileKey hlive
    have hstorage : fileKey.content.bytes = fileKey.storage.bytes :=
      Key.bytes_content (Nat.le_refl _) fileKey
    rw [hstorage]
    refine ⟨?_, ?_⟩
    · obtain ⟨key, hderive, hkey, hbytes⟩ := headerKey_of_live hlive
      exact ⟨key, (h.headerKey_eq fileKey).trans hderive, hderive, hkey, hbytes⟩
    · intro nonce
      obtain ⟨key, hderive, hkey, hbytes⟩ := payloadKey_of_live hlive nonce
      rw [← Key.bytes_content (Nat.le_refl _)] at hbytes
      exact ⟨key, (h.payloadKey_eq fileKey nonce).trans hderive, hderive, hkey, hbytes⟩
  · intro context key material info
    exact ⟨h.tagger_refusesNoLength key, h.extract_refusesNoLength key material,
      h.deriveKey_refusesNoLength material key info⟩
  · intro fileKey nonce
    exact ⟨h.headerKey_refusesNoLength fileKey, h.payloadKey_refusesNoLength fileKey nonce⟩

/-- HMAC-SHA-256 as it is defined: every key is accepted. -/
def hmac : Keying :=
  fun key => some (Hmac.tag key)

/-- With HMAC-SHA-256 as it is defined, the header key of a file key of zeros is derived without a
salt, and a nonce of zeros is a salt of sixteen bytes for its payload key. -/
theorem AcceptsAll.derives_hkdf_zero :
    hmac.AcceptsAll ∧
      ∃ header payload, hmac.headerKey (Key.ofFixed (FixedBytes.zero _)) = .ok header ∧
        header.content.bytes =
          Hkdf.derive (List.replicate 16 0) Hkdf.noSalt (ascii "header") 32 ∧
        hmac.payloadKey (Key.ofFixed (FixedBytes.zero _)) (FixedBytes.zero _) = .ok payload ∧
        payload.content.bytes =
          Hkdf.derive (List.replicate 16 0) (List.replicate 16 0) (ascii "payload") 32 := by
  have haccepts : hmac.AcceptsAll := fun _ => rfl
  obtain ⟨-, -, hfile, -⟩ := AcceptsAll.derives_hkdf haccepts
  obtain ⟨⟨header, hheader, -, -, hheaderBytes⟩, hpayloads⟩ :=
    hfile (Key.ofFixed (FixedBytes.zero _)) rfl
  obtain ⟨payload, hpayload, -, -, hpayloadBytes⟩ := hpayloads (FixedBytes.zero _)
  rw [Key.content_ofFixed] at hheaderBytes hpayloadBytes
  exact ⟨haccepts, header, payload, hheader, hheaderBytes, hpayload, hpayloadBytes⟩

end Keying

end AgeFile
