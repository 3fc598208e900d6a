import AgeFile.Envelope
import AgeFile.Proofs.Recipient.Resolution

/-!
# How reading the beginning of a file ends

Reading goes through stages: the header, the file key, its MAC, the payload nonce. `DecryptOutcome`
says what the first stage that fails makes of it, and what the payload key is when none fails. Read
`decryptHeader_eq_iff` first: for readers that answer from the stanzas alone, these are the results,
and each of them comes about in no other way. The MAC is checked over the bytes of the input.
-/

namespace AgeFile

/-- How reading the beginning of an input can end. -/
inductive DecryptOutcome (input : Bytes) (readers : List (StanzaReader Id))
    (limits : HeaderLimits) : Except Error (CipherKey × Nat) → Prop
  /-- There is no header. -/
  | malformed {e : Error} (hparse : Header.parse input limits = .error e) :
      DecryptOutcome input readers limits (.error e)
  /-- No reader yields a key. -/
  | locked {header : Header} {offset : Nat} {causes : List Error}
      (hparse : Header.parse input limits = .ok (header, offset))
      (hdeclines : List.Forall₂ (Declines header.stanzas) readers causes) :
      DecryptOutcome input readers limits (.error (Error.ofCauses causes))
  /-- The first key that a reader yields was destroyed. -/
  | destroyed {header : Header} {offset : Nat} {fileKey : FileKey}
      (hparse : Header.parse input limits = .ok (header, offset))
      (hyields : YieldsFirst header.stanzas readers fileKey)
      (hdestroyed : fileKey.destroyed = true) :
      DecryptOutcome input readers limits (.error (.keyDestroyed "file key"))
  /-- The MAC is not that of the input before the MAC line. -/
  | forged {header : Header} {offset : Nat} {fileKey : FileKey}
      (hparse : Header.parse input limits = .ok (header, offset))
      (hyields : YieldsFirst header.stanzas readers fileKey)
      (hlive : fileKey.destroyed = false)
      (hmac : header.mac ≠
        Header.expectedMac fileKey (input.take (offset - Format.footerLength))) :
      DecryptOutcome input readers limits (.error .headerMacMismatch)
  /-- The input ends within the payload nonce. -/
  | cut {header : Header} {offset : Nat} {fileKey : FileKey}
      (hparse : Header.parse input limits = .ok (header, offset))
      (hyields : YieldsFirst header.stanzas readers fileKey)
      (hlive : fileKey.destroyed = false)
      (hmac : header.mac =
        Header.expectedMac fileKey (input.take (offset - Format.footerLength)))
      (hshort : input.length < offset + Format.payloadNonceSize) :
      DecryptOutcome input readers limits
        (.error (.truncated Format.payloadNonceSize (input.length - offset)))
  /-- The payload begins after the nonce, and its key is derived from the file key and the nonce. -/
  | opened {header : Header} {offset : Nat} {fileKey : FileKey} {payload : CipherKey}
      (hparse : Header.parse input limits = .ok (header, offset))
      (hyields : YieldsFirst header.stanzas readers fileKey)
      (hlive : fileKey.destroyed = false)
      (hmac : header.mac =
        Header.expectedMac fileKey (input.take (offset - Format.footerLength)))
      (hlong : offset + Format.payloadNonceSize ≤ input.length)
      (hpayload : payload.destroyed = false)
      (hbytes : payload.storage.bytes = Hkdf.derive fileKey.storage.bytes
        ((input.drop offset).take Format.payloadNonceSize) (ascii "payload")
        Format.cipherKeySize) :
      DecryptOutcome input readers limits (.ok (payload, offset + Format.payloadNonceSize))

variable {input : Bytes} {limits : HeaderLimits} {header : Header} {offset : Nat}

/-- When there is no header, no reader is asked. -/
theorem decryptHeader_of_parse_error {m : Type → Type} [Monad m] {e : Error}
    (h : Header.parse input limits = .error e) (readers : List (StanzaReader m)) :
    decryptHeader input readers limits = pure (.error e) := by
  rw [decryptHeader, map_eq_error_iff.mp h]

variable {readers : List (StanzaReader Id)} {fileKey : FileKey}

/-- When a header stays locked, its error is passed on. -/
theorem decryptHeader_of_locked {e : Error}
    (hparse : Header.parse input limits = .ok (header, offset))
    (hunlock : (unlockHeader header readers).run = .error e) :
    (decryptHeader input readers limits).run = .error e := by
  have hanswer : unlockHeader header readers = pure (.error e) := hunlock
  rw [decryptHeader, Header.read_of_parse hparse]
  simp only [hanswer, pure_bind]
  rfl

/-- When the input ends within the payload nonce, the error says how many bytes are left. -/
theorem decryptHeader_of_short (hparse : Header.parse input limits = .ok (header, offset))
    (hunlock : (unlockHeader header readers).run = .ok fileKey)
    (hshort : input.length < offset + Format.payloadNonceSize) :
    (decryptHeader input readers limits).run =
      .error (.truncated Format.payloadNonceSize (input.length - offset)) := by
  have hanswer : unlockHeader header readers = pure (.ok fileKey) := hunlock
  have hsize : Format.payloadNonceSize = 16 := rfl
  have hnone : FixedBytes.ofBytes? Format.payloadNonceSize
      ((input.drop offset).take Format.payloadNonceSize) = none := by
    rw [FixedBytes.ofBytes?, dif_neg]
    rw [List.length_take, List.length_drop]
    omega
  rw [decryptHeader, Header.read_of_parse hparse]
  simp only [hanswer, pure_bind, hnone, List.length_drop]
  rfl

/-- An input that goes on for long enough has a payload nonce. -/
theorem exists_nonce (h : offset + Format.payloadNonceSize ≤ input.length) :
    ∃ nonce : FixedBytes Format.payloadNonceSize,
      (input.drop offset).take Format.payloadNonceSize = nonce.bytes := by
  have hlength : ((input.drop offset).take Format.payloadNonceSize).length =
      Format.payloadNonceSize := by
    rw [List.length_take, List.length_drop]
    omega
  exact ⟨⟨_, hlength⟩, rfl⟩

/-- The payload key is derived from the nonce after the header. -/
theorem decryptHeader_of_nonce {nonce : FixedBytes Format.payloadNonceSize}
    (hparse : Header.parse input limits = .ok (header, offset))
    (hunlock : (unlockHeader header readers).run = .ok fileKey)
    (hnonce : (input.drop offset).take Format.payloadNonceSize = nonce.bytes) :
    (decryptHeader input readers limits).run =
      (payloadKey fileKey nonce).map fun key => (key, offset + Format.payloadNonceSize) := by
  have hanswer : unlockHeader header readers = pure (.ok fileKey) := hunlock
  rw [decryptHeader, Header.read_of_parse hparse]
  simp only [hanswer, pure_bind, hnonce, FixedBytes.ofBytes?_bytes]
  cases payloadKey fileKey nonce with
  | error e => rfl
  | ok key => rfl

/-- The MAC of a header that was read is checked over the bytes of the input before the MAC line. -/
theorem verifyMac_of_parse (hparse : Header.parse input limits = .ok (header, offset))
    (hlive : fileKey.destroyed = false) :
    header.verifyMac fileKey =
      if header.mac = Header.expectedMac fileKey (input.take (offset - Format.footerLength)) then
        .ok ()
      else .error .headerMacMismatch := by
  obtain ⟨-, -, hcovered⟩ := Header.take_of_parse hparse
  rw [Header.verifyMac_of_live hlive, hcovered]

/-- The first key that a reader yields unlocks a header that was read when the MAC of the input
before the MAC line is the one under that key. -/
theorem unlockHeader_of_mac (hparse : Header.parse input limits = .ok (header, offset))
    (hyields : YieldsFirst header.stanzas readers fileKey) (hlive : fileKey.destroyed = false)
    (hmac : header.mac =
      Header.expectedMac fileKey (input.take (offset - Format.footerLength))) :
    (unlockHeader header readers).run = .ok fileKey := by
  rw [unlockHeader_of_yieldsFirst hyields, verifyMac_of_parse hparse hlive, if_pos hmac]
  rfl

/-- The results described are the ones that come about. -/
theorem DecryptOutcome.run_eq {result : Except Error (CipherKey × Nat)}
    (h : DecryptOutcome input readers limits result) :
    (decryptHeader input readers limits).run = result := by
  cases h with
  | malformed hparse =>
      rw [decryptHeader_of_parse_error hparse]
      rfl
  | locked hparse hdeclines =>
      exact decryptHeader_of_locked hparse (unlockHeader_of_declines hdeclines)
  | destroyed hparse hyields hdestroyed =>
      refine decryptHeader_of_locked hparse ?_
      rw [unlockHeader_of_yieldsFirst hyields, Header.verifyMac_of_destroyed hdestroyed]
      rfl
  | forged hparse hyields hlive hmac =>
      refine decryptHeader_of_locked hparse ?_
      rw [unlockHeader_of_yieldsFirst hyields, verifyMac_of_parse hparse hlive, if_neg hmac]
      rfl
  | cut hparse hyields hlive hmac hshort =>
      exact decryptHeader_of_short hparse (unlockHeader_of_mac hparse hyields hlive hmac) hshort
  | opened hparse hyields hlive hmac hlong hpayload hbytes =>
      have hunlock := unlockHeader_of_mac hparse hyields hlive hmac
      obtain ⟨nonce, hnonce⟩ := exists_nonce hlong
      rw [hnonce] at hbytes
      rw [decryptHeader_of_nonce hparse hunlock hnonce,
        (payloadKey_eq_ok_iff hlive).mpr ⟨hpayload, hbytes⟩]
      rfl

/-- Some result is always described: the stages are gone through in order, and the first that fails
decides. -/
theorem exists_decryptOutcome (input : Bytes) (readers : List (StanzaReader Id))
    (limits : HeaderLimits) : ∃ result, DecryptOutcome input readers limits result := by
  -- The cases are the checks of the stages, in the order in which they are made.
  cases hparse : Header.parse input limits with
  | error e => exact ⟨_, .malformed hparse⟩
  | ok read =>
      obtain ⟨header, offset⟩ := read
      rcases yieldsFirst_or_declines header.stanzas readers with ⟨fileKey, hyields⟩ |
        ⟨causes, hdeclines⟩
      · cases hlive : fileKey.destroyed with
        | true => exact ⟨_, .destroyed hparse hyields hlive⟩
        | false =>
            by_cases hmac : header.mac =
                Header.expectedMac fileKey (input.take (offset - Format.footerLength))
            · by_cases hlong : offset + Format.payloadNonceSize ≤ input.length
              · obtain ⟨nonce, hnonce⟩ := exists_nonce hlong
                obtain ⟨payload, -, hpayload, hbytes⟩ := payloadKey_of_live hlive nonce
                rw [← hnonce] at hbytes
                exact ⟨_, .opened hparse hyields hlive hmac hlong hpayload hbytes⟩
              · exact ⟨_, .cut hparse hyields hlive hmac (Nat.lt_of_not_le hlong)⟩
            · exact ⟨_, .forged hparse hyields hlive hmac⟩
      · exact ⟨_, .locked hparse hdeclines⟩

/-- Reading the beginning of a file ends as described and in no other way, for every input, all
limits and all readers that answer from the stanzas alone. Readers of any other kind are not asked
either when there is no header. -/
theorem decryptHeader_eq_iff (input : Bytes) (readers : List (StanzaReader Id))
    (limits : HeaderLimits) (result : Except Error (CipherKey × Nat)) :
    ((decryptHeader input readers limits).run = result ↔
      DecryptOutcome input readers limits result) ∧
    ∀ (m : Type → Type) [Monad m] (others : List (StanzaReader m)) (e : Error),
      Header.parse input limits = .error e →
        decryptHeader input others limits = pure (.error e) := by
  refine ⟨⟨?_, DecryptOutcome.run_eq⟩, fun m _ others e h => decryptHeader_of_parse_error h others⟩
  intro h
  obtain ⟨other, hother⟩ := exists_decryptOutcome input readers limits
  rw [← h, hother.run_eq]
  exact hother

end AgeFile
