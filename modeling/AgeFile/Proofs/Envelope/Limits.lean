import AgeFile.Proofs.Envelope.RoundTrip
import AgeFile.Proofs.Header.Limits

/-!
# Writing more than is read by default

Limits bound the reader and not the writer, so a file can be written for more recipients than a
reader with the default limits accepts. Read `parse_encryptHeader` first: what was written is read
by default exactly when it is within the default limits, and otherwise the limit is reported.
`parse_encryptHeader_manyRecipients` is a file for one recipient too many.
-/

namespace AgeFile

variable {writers : List (StanzaWriter Id)} {source after : RandomSource} {bytes : Bytes}
  {payload : CipherKey}

/-! ## Many plain recipients -/

variable {fileKey : FileKey}

/-- Writers write one list of stanzas for a file key. -/
theorem Writes.unique {stanzas others : List Stanza} (h : Writes fileKey writers stanzas)
    (hother : Writes fileKey writers others) : stanzas = others := by
  induction h generalizing others with
  | nil =>
      cases hother
      rfl
  | cons hown _ ih =>
      cases hother with
      | cons hown' hrest =>
          obtain rfl := Except.ok.inj (hown.symm.trans hown')
          rw [ih hrest]

/-- Writers that all write the same stanza write it as often as there are writers. -/
theorem Writes.replicate {writer : StanzaWriter Id} {stanza : Stanza}
    (h : (writer fileKey).run = .ok [stanza]) (count : Nat) :
    Writes fileKey (List.replicate count writer) (List.replicate count stanza) := by
  induction count with
  | zero => exact .nil
  | succ count ih => exact .cons h ih

/-- As many bytes are written for stanzas that are all the same as for each of them. -/
theorem length_flatMap_replicate (count : Nat) (stanza : Stanza) :
    ((List.replicate count stanza).flatMap Stanza.encode).length =
      count * stanza.encode.length := by
  rw [List.length_flatMap, List.map_replicate, List.sum_replicate_nat]

/-- The type of the stanzas of the plain recipients here. -/
def plainTag : Token :=
  ⟨ascii "x", by decide, List.all_eq_true.mp (by decide)⟩

/-- The stanza of a plain recipient of this type. -/
def plainStanza (fileKey : FileKey) : Stanza :=
  ⟨plainTag, [], fileKey.storage.bytes⟩

/-- A plain recipient of this type writes this stanza. -/
theorem write_plain (hlive : fileKey.destroyed = false) :
    ((PlainRecipient.writer ⟨"x", []⟩) fileKey).run = .ok [plainStanza fileKey] :=
  PlainRecipient.write_of_live hlive (by decide) rfl

/-- The stanza of a plain recipient takes 28 bytes. -/
theorem length_plainStanza (fileKey : FileKey) : (plainStanza fileKey).encode.length = 28 := by
  rw [Stanza.length_encode, plainStanza, fileKey.storage.length_eq]
  rfl

/-- The header for plain recipients takes 70 bytes and 28 for each of them. -/
theorem length_written_plain (fileKey : FileKey) (mac : Mac) (count : Nat) :
    (Header.written ⟨List.replicate count (plainStanza fileKey), mac⟩).length =
      70 + 28 * count := by
  rw [Header.length_written, Header.length_coveredBytes, List.map_replicate,
    List.sum_replicate_nat, length_plainStanza]
  show 25 + count * 28 + 45 = 70 + 28 * count
  omega

/-- A file is written for any number of plain recipients, with a stanza for each of them. -/
theorem encryptHeader_plain (source : RandomSource) (count : Nat) :
    ∃ (mac : Mac) (nonce : FixedBytes Format.payloadNonceSize) (payload : CipherKey)
      (after : RandomSource),
      (encryptHeader (List.replicate (count + 1) (PlainRecipient.writer ⟨"x", []⟩)) source).run =
        (.ok (Header.written
          ⟨List.replicate (count + 1) (plainStanza (generateFileKey source).1), mac⟩ ++
            nonce.bytes, payload), after) := by
  cases hkey : generateFileKey source with
  | mk fileKey rest =>
      cases hdraw : rest.draw Format.payloadNonceSize with
      | mk nonce last =>
          have hlive := generateFileKey_live hkey
          obtain ⟨payload, hpayload, -⟩ := payloadKey_of_live hlive nonce
          exact ⟨_, nonce, payload, last, (encryptHeader_eq_ok_iff hkey hdraw).mpr
            ⟨by simp [List.replicate_succ], rfl, hpayload, _,
              Writes.replicate (write_plain hlive) (count + 1), rfl⟩⟩

/-! ## The default limits -/

/-- What is written before a nonce ends where the nonce begins. -/
theorem length_append_nonce (written : Bytes) (nonce : FixedBytes Format.payloadNonceSize) :
    (written ++ nonce.bytes).length - Format.payloadNonceSize = written.length := by
  rw [List.length_append, nonce.length_eq, Nat.add_sub_cancel]

/-- What was written for some recipients is read by default, with their stanzas and up to the nonce,
exactly when it has at most 4096 stanzas and the header at most 1048576 bytes. Otherwise one of
these limits is reported. -/
theorem parse_encryptHeader
    (h : (encryptHeader writers source).run = (.ok (bytes, payload), after)) :
    ∃ header : Header, Writes (generateFileKey source).1 writers header.stanzas ∧
      (Header.parse bytes = .ok (header, bytes.length - Format.payloadNonceSize) ↔
        header.stanzas.length ≤ 4096 ∧ bytes.length - Format.payloadNonceSize ≤ 1048576) ∧
      (Header.parse bytes = .ok (header, bytes.length - Format.payloadNonceSize) ∨
        Header.parse bytes = .error (.tooManyStanzas 4096) ∨
        Header.parse bytes = .error (.headerTooLarge 1048576)) := by
  cases hkey : generateFileKey source with
  | mk fileKey rest =>
      cases hdraw : rest.draw Format.payloadNonceSize with
      | mk nonce last =>
          obtain ⟨-, -, -, stanzas, hwrites, rfl⟩ := (encryptHeader_eq_ok_iff hkey hdraw).mp h
          refine ⟨⟨stanzas, Header.expectedMac fileKey (Header.coveredBytes stanzas)⟩, hwrites,
            ?_, ?_⟩
          · rw [length_append_nonce]
            exact Header.parse_written_append_eq_ok_iff
          · rw [length_append_nonce]
            exact Header.parse_written_append_cases _ _ _

/-- What was written for one plain recipient is read by default. -/
theorem parse_encryptHeader_onePlain :
    ∃ bytes payload after header,
      (encryptHeader [PlainRecipient.writer ⟨"x", []⟩] ⟨fun _ => 0, 0⟩).run =
        (.ok (bytes, payload), after) ∧
      Header.parse bytes = .ok (header, bytes.length - Format.payloadNonceSize) := by
  obtain ⟨mac, nonce, payload, after, hencrypt⟩ := encryptHeader_plain ⟨fun _ => 0, 0⟩ 0
  obtain ⟨header, hwrites, hread, -⟩ := parse_encryptHeader hencrypt
  have hlive := generateFileKey_live (Prod.eta (generateFileKey ⟨fun _ => 0, 0⟩)).symm
  have hstanzas : header.stanzas = List.replicate 1 (plainStanza _) :=
    hwrites.unique (Writes.replicate (write_plain hlive) 1)
  refine ⟨_, payload, after, header, hencrypt, hread.mpr ⟨?_, ?_⟩⟩
  · rw [hstanzas, List.length_replicate]
    decide
  · rw [length_append_nonce, length_written_plain]
    decide

/-- A file is written for 4097 plain recipients, and a reader with the default limits refuses it. -/
theorem parse_encryptHeader_manyRecipients :
    ∃ bytes payload after,
      (encryptHeader (List.replicate 4097 (PlainRecipient.writer ⟨"x", []⟩)) ⟨fun _ => 0, 0⟩).run =
        (.ok (bytes, payload), after) ∧
      Header.parse bytes = .error (.tooManyStanzas 4096) := by
  obtain ⟨mac, nonce, payload, after, hencrypt⟩ := encryptHeader_plain ⟨fun _ => 0, 0⟩ 4096
  refine ⟨_, payload, after, hencrypt, ?_⟩
  -- The last stanza stands after as many as are allowed.
  refine Header.parse_written_append_of_full List.replicate_succ' ?_ ?_
  · exact List.length_replicate
  · rw [length_flatMap_replicate, length_plainStanza]
    decide

end AgeFile
