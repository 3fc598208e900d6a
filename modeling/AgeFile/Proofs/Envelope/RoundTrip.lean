import AgeFile.Proofs.Envelope.Reading
import AgeFile.Proofs.Envelope.Writing

/-!
# Reading what was written

The beginning of a file that was written for some recipients opens for whoever recovers its file
key. Read `decryptHeader_encryptHeader` first: reading yields the payload key of the writer and the
place where the payload begins, whatever the payload is. `PlainRecipient.read_of_write` gives a
recipient for whom this can happen.
-/

namespace AgeFile

/-- The plain recipient as a writer. -/
def PlainRecipient.writer (recipient : PlainRecipient) : StanzaWriter Id :=
  fun fileKey => pure (recipient.write fileKey)

/-- The plain recipient as a reader. -/
def PlainRecipient.reader (recipient : PlainRecipient) : StanzaReader Id :=
  fun stanzas => pure (recipient.read stanzas)

/-- The plain recipient writes the file key as the body of one stanza, if its type and arguments are
tokens. -/
theorem PlainRecipient.write_of_live {recipient : PlainRecipient} {fileKey : FileKey}
    (hlive : fileKey.destroyed = false) {tag : Token} {args : List Token}
    (htag : tag.text = recipient.tag) (hargs : args.map Token.text = recipient.args) :
    recipient.write fileKey = .ok [⟨tag, args, fileKey.storage.bytes⟩] := by
  have hcreate : Stanza.create recipient.tag recipient.args fileKey.storage.bytes =
      .ok ⟨tag, args, fileKey.storage.bytes⟩ := Stanza.create_eq_ok_iff.mpr ⟨htag, hargs, rfl⟩
  obtain ⟨bytes, hread, hbytes⟩ := FileKey.exists_read hlive
  rw [write, hread, ok_bind, hbytes, hcreate]
  rfl

/-- The plain recipient recovers the key from the stanzas that it writes. -/
theorem PlainRecipient.read_of_write {recipient : PlainRecipient} {fileKey : FileKey}
    {stanzas : List Stanza} (h : recipient.write fileKey = .ok stanzas) :
    stanzas.length = 1 ∧ recipient.read stanzas = .ok (some fileKey) := by
  obtain ⟨bytes, hbytes, h⟩ := bind_eq_ok_iff.mp h
  obtain ⟨stanza, hstanza, h⟩ := bind_eq_ok_iff.mp h
  obtain rfl : [stanza] = stanzas := Except.ok.inj h
  obtain ⟨htag, -, hbody⟩ := Stanza.create_eq_ok_iff.mp hstanza
  have hkey : Key.ofBytes .file stanza.body = .ok fileKey := by
    rw [Key.ofBytes_eq_ok_iff, hbody]
    cases hlive : fileKey.destroyed with
    | false =>
        rw [Key.read_of_live hlive] at hbytes
        obtain rfl := Except.ok.inj hbytes
        exact ⟨_, rfl, Key.ofFixed_content (Nat.le_refl _) hlive⟩
    | true =>
        rw [Key.read_of_destroyed hlive] at hbytes
        exact absurd hbytes (by simp)
  refine ⟨rfl, ?_⟩
  rw [read, List.find?_cons_of_pos (by simp [htag])]
  simp only [hkey]
  rfl

variable {payload : CipherKey}

/-- A header with the MAC under a file key, and a nonce behind it, open for readers of whom the
first that yields a key yields this one. -/
theorem decryptHeader_written_append {header : Header} {fileKey : FileKey}
    {nonce : FixedBytes Format.payloadNonceSize} {readers : List (StanzaReader Id)}
    {limits : HeaderLimits} (hlive : fileKey.destroyed = false)
    (hmac : header.mac = Header.expectedMac fileKey (Header.coveredBytes header.stanzas))
    (hpayload : payloadKey fileKey nonce = .ok payload)
    (hyields : YieldsFirst header.stanzas readers fileKey)
    (hcount : header.stanzas.length ≤ limits.maxStanzas)
    (hlength : header.written.length ≤ limits.maxHeaderLength) (trailing : Bytes) :
    (decryptHeader (header.written ++ (nonce.bytes ++ trailing)) readers limits).run =
      .ok (payload, header.written.length + Format.payloadNonceSize) := by
  have hparse := Header.parse_written_append hcount hlength (nonce.bytes ++ trailing)
  obtain ⟨-, -, hcovered⟩ := Header.take_of_parse hparse
  have hunlock := unlockHeader_of_mac hparse hyields hlive (by rw [hcovered, hmac])
  have hnonce : ((header.written ++ (nonce.bytes ++ trailing)).drop header.written.length).take
      Format.payloadNonceSize = nonce.bytes := by
    rw [List.drop_left, List.take_append_of_le_length (Nat.le_of_eq nonce.length_eq.symm),
      List.take_of_length_le (Nat.le_of_eq nonce.length_eq)]
  rw [decryptHeader_of_nonce hparse hunlock hnonce, hpayload]
  rfl

variable {writers : List (StanzaWriter Id)} {source after : RandomSource} {bytes : Bytes}

/-- What was written for some recipients opens for readers of whom the first that yields a key
recovers the file key, if the limits allow the header. They get the writer's payload key, and the
payload begins where the written bytes end, whatever follows those. -/
theorem decryptHeader_encryptHeader
    (h : (encryptHeader writers source).run = (.ok (bytes, payload), after)) :
    payload.destroyed = false ∧
      ∃ stanzas, Writes (generateFileKey source).1 writers stanzas ∧
        ∀ (readers : List (StanzaReader Id)) (limits : HeaderLimits) (trailing : Bytes),
          YieldsFirst stanzas readers (generateFileKey source).1 →
          stanzas.length ≤ limits.maxStanzas →
          bytes.length - Format.payloadNonceSize ≤ limits.maxHeaderLength →
          ∃ offset, (decryptHeader (bytes ++ trailing) readers limits).run =
              .ok (payload, offset) ∧
            offset = bytes.length ∧ (bytes ++ trailing).drop offset = trailing := by
  cases hkey : generateFileKey source with
  | mk fileKey rest =>
      cases hdraw : rest.draw Format.payloadNonceSize with
      | mk nonce last =>
          have hlive := generateFileKey_live hkey
          obtain ⟨-, -, hpayload, stanzas, hwrites, rfl⟩ :=
            (encryptHeader_eq_ok_iff hkey hdraw).mp h
          refine ⟨((payloadKey_eq_ok_iff hlive).mp hpayload).1, stanzas, hwrites, ?_⟩
          intro readers limits trailing hyields hcount hlength
          rw [List.length_append, nonce.length_eq, Nat.add_sub_cancel] at hlength
          refine ⟨_, ?_, rfl, List.drop_left⟩
          rw [List.length_append, nonce.length_eq, List.append_assoc]
          exact decryptHeader_written_append hlive rfl hpayload hyields hcount hlength trailing

/-- What was written for one plain recipient opens for it within the tightest limits. -/
theorem decryptHeader_encryptHeader_plain :
    ∃ bytes payload after,
      (encryptHeader [PlainRecipient.writer ⟨"plain", []⟩] ⟨fun _ => 7, 0⟩).run =
        (.ok (bytes, payload), after) ∧
      (decryptHeader (bytes ++ [0xff]) [PlainRecipient.reader ⟨"plain", []⟩]
        ⟨bytes.length, 1⟩).run = .ok (payload, bytes.length) := by
  obtain ⟨fileKey, rest, hkey⟩ : ∃ fileKey rest,
      generateFileKey ⟨fun _ => 7, 0⟩ = (fileKey, rest) := ⟨_, _, rfl⟩
  obtain ⟨nonce, last, hdraw⟩ : ∃ nonce last,
      rest.draw Format.payloadNonceSize = (nonce, last) := ⟨_, _, rfl⟩
  have hlive := generateFileKey_live hkey
  obtain ⟨tag, htag⟩ : ∃ tag : Token, tag.text = "plain" :=
    ⟨⟨ascii "plain", by decide, List.all_eq_true.mp (by decide)⟩, by decide⟩
  have hown : PlainRecipient.write ⟨"plain", []⟩ fileKey = .ok _ :=
    PlainRecipient.write_of_live hlive htag List.map_nil
  obtain ⟨payload, hpayload, -⟩ := payloadKey_of_live hlive nonce
  have hwrites : Writes fileKey [PlainRecipient.writer ⟨"plain", []⟩] (_ ++ []) :=
    .cons hown .nil
  have hencrypt := (encryptHeader_eq_ok_iff hkey hdraw).mpr
    ⟨List.cons_ne_nil _ _, rfl, hpayload, _, hwrites, rfl⟩
  obtain ⟨-, stanzas, hstanzas, hopens⟩ := decryptHeader_encryptHeader hencrypt
  rw [hkey] at hstanzas hopens
  -- The stanzas can only be those of the one writer.
  cases hstanzas with
  | @cons _ _ other others hother hothers =>
      cases hothers
      obtain ⟨hcount, hread⟩ := PlainRecipient.read_of_write hother
      rw [List.append_nil] at hopens
      obtain ⟨offset, hdecrypt, rfl, -⟩ := hopens [PlainRecipient.reader ⟨"plain", []⟩]
        ⟨_, 1⟩ [0xff] ⟨[], _, [], rfl, by simp, hread⟩ (Nat.le_of_eq hcount) (Nat.sub_le _ _)
      exact ⟨_, _, _, hencrypt, hdecrypt⟩

end AgeFile
