import AgeFile.Proofs.Envelope.RoundTrip
import AgeFile.Proofs.Recipient.Secret

/-!
# Every recipient opens the file

A file can be written for any number of recipients with secrets. Read `decryptHeader_everyRecipient`
first: writing for them succeeds, and each of them opens the file, wherever its stanza stands among
those of the others and whatever their labels are, unless one before it has its label and another
secret.
-/

namespace AgeFile

variable {fileKey : FileKey}

/-- Recipients with secrets never fail, and each of them wraps the file key in one stanza. -/
theorem exists_writes_wraps (recipients : List SaltedRecipient)
    (hlive : fileKey.destroyed = false) :
    ∃ stanzas, Writes fileKey (recipients.map SaltedRecipient.writer) stanzas ∧
      List.Forall₂ (fun salted stanza => salted.Wraps fileKey stanza) recipients stanzas := by
  induction recipients with
  | nil => exact ⟨[], .nil, .nil⟩
  | cons salted recipients ih =>
      obtain ⟨stanza, hown, hwraps⟩ := salted.exists_wraps hlive
      obtain ⟨stanzas, hwrites, hothers⟩ := ih
      exact ⟨stanza :: stanzas, .cons hown hwrites, .cons hwraps hothers⟩

/-- A file that is written for one or more recipients with secrets opens for each of them, if those
before it with its label have its secret: behind readers that yield no key, within limits that admit
the header, and whatever follows. The reader gets the writer's payload key, and the payload begins
where the written bytes end. -/
theorem decryptHeader_everyRecipient {recipients : List SaltedRecipient} (hne : recipients ≠ [])
    (source : RandomSource) :
    ∃ bytes payload after stanzas,
      (encryptHeader (recipients.map SaltedRecipient.writer) source).run =
        (.ok (bytes, payload), after) ∧
      payload.destroyed = false ∧
      Writes (generateFileKey source).1 (recipients.map SaltedRecipient.writer) stanzas ∧
      List.Forall₂ (fun salted stanza => salted.Wraps (generateFileKey source).1 stanza)
        recipients stanzas ∧
      ∀ (earlier later : List SaltedRecipient) (reader : SaltedRecipient),
        recipients = earlier ++ reader :: later →
        (∀ other ∈ earlier, other.label = reader.label → other.secret = reader.secret) →
        ∀ (before others : List (StanzaReader Id)) (limits : HeaderLimits) (trailing : Bytes),
          (∀ silent ∈ before, ∀ found, (silent stanzas).run ≠ .ok (some found)) →
          recipients.length ≤ limits.maxStanzas →
          bytes.length - Format.payloadNonceSize ≤ limits.maxHeaderLength →
          (decryptHeader (bytes ++ trailing) (before ++ reader.recipient.reader :: others)
            limits).run = .ok (payload, bytes.length) := by
  cases hkey : generateFileKey source with
  | mk fileKey rest =>
      cases hdraw : rest.draw Format.payloadNonceSize with
      | mk nonce last =>
          have hlive := generateFileKey_live hkey
          obtain ⟨stanzas, hwrites, hwraps⟩ := exists_writes_wraps recipients hlive
          obtain ⟨payload, hpayload, hpayloadLive, -⟩ := payloadKey_of_live hlive nonce
          have hencrypt := (encryptHeader_eq_ok_iff hkey hdraw).mpr
            ⟨by simpa using hne, rfl, hpayload, stanzas, hwrites, rfl⟩
          refine ⟨_, payload, last, stanzas, hencrypt, hpayloadLive, hwrites, hwraps, ?_⟩
          intro earlier later reader hsplit hsame before others limits trailing hbefore hcount
            hlength
          rw [hsplit] at hwraps
          have hread : (reader.recipient.reader stanzas).run = .ok (some fileKey) :=
            reader.read_of_wraps hwraps hsame
          have hyields : YieldsFirst stanzas (before ++ reader.recipient.reader :: others)
              fileKey := ⟨before, _, others, rfl, hbefore, hread⟩
          rw [hsplit, hwraps.length_eq] at hcount
          rw [List.length_append, nonce.length_eq, Nat.add_sub_cancel] at hlength
          rw [List.length_append, nonce.length_eq, List.append_assoc]
          exact decryptHeader_written_append hlive rfl hpayload hyields hcount hlength trailing

/-- Of three recipients the first and the last share a label and a secret, but not the salt; the
last one opens the file behind a reader with another label. -/
theorem decryptHeader_everyRecipient_sharedLabel :
    ∃ x y : Token, x.text = "x" ∧ y.text = "y" ∧
      ∃ bytes payload after,
        (encryptHeader ([⟨x, [1], FixedBytes.zero 32⟩, ⟨y, [2], FixedBytes.zero 32⟩,
            ⟨x, [1], ⟨List.replicate 32 7, rfl⟩⟩].map SaltedRecipient.writer)
          ⟨fun _ => 7, 0⟩).run = (.ok (bytes, payload), after) ∧
        (decryptHeader (bytes ++ [0xff])
          [SecretRecipient.reader ⟨"z", []⟩, SecretRecipient.reader ⟨"x", [1]⟩]
          ⟨bytes.length, 3⟩).run = .ok (payload, bytes.length) := by
  let x : Token := ⟨ascii "x", by decide, List.all_eq_true.mp (by decide)⟩
  let y : Token := ⟨ascii "y", by decide, List.all_eq_true.mp (by decide)⟩
  let z : Token := ⟨ascii "z", by decide, List.all_eq_true.mp (by decide)⟩
  let first : SaltedRecipient := ⟨x, [1], FixedBytes.zero 32⟩
  let second : SaltedRecipient := ⟨y, [2], FixedBytes.zero 32⟩
  let third : SaltedRecipient := ⟨x, [1], ⟨List.replicate 32 7, rfl⟩⟩
  let stranger : SaltedRecipient := ⟨z, [], FixedBytes.zero 32⟩
  obtain ⟨bytes, payload, after, stanzas, hencrypt, -, -, hwraps, hopens⟩ :=
    @decryptHeader_everyRecipient [first, second, third] (List.cons_ne_nil _ _) ⟨fun _ => 7, 0⟩
  have hstranger : ∀ silent ∈ [stranger.recipient.reader],
      ∀ found, (silent stanzas).run ≠ .ok (some found) := by
    intro silent hsilent found
    obtain rfl := List.mem_singleton.mp hsilent
    show stranger.recipient.read stanzas ≠ _
    rw [stranger.read_of_wraps_others hwraps (by decide)]
    simp
  have hrun := hopens [first, second] [] third rfl (by decide) [stranger.recipient.reader] []
    ⟨bytes.length, 3⟩ [0xff] hstranger (Nat.le_refl 3) (Nat.sub_le _ _)
  exact ⟨x, y, by decide, by decide, bytes, payload, after, hencrypt, hrun⟩

end AgeFile
