import AgeFile.Envelope
import AgeFile.Proofs.Header.Authentication

/-!
# What writing the beginning of a file yields

The writers here answer from the file key alone. Read `encryptHeader_eq_ok_iff` first: writing
succeeds exactly when there are writers and none of them fails, and then the bytes are the header
for all of their stanzas and a nonce. File key and nonce are the next bytes of the random source.
-/

namespace AgeFile

/-- None of the writers fails on a file key, and these are their stanzas one after the other. -/
inductive Writes (fileKey : FileKey) : List (StanzaWriter Id) → List Stanza → Prop
  | nil : Writes fileKey [] []
  | cons {writer : StanzaWriter Id} {writers : List (StanzaWriter Id)} {own others : List Stanza} :
      (writer fileKey).run = .ok own → Writes fileKey writers others →
      Writes fileKey (writer :: writers) (own ++ others)

variable {fileKey : FileKey} {writers : List (StanzaWriter Id)} {done stanzas : List Stanza}

/-- The stanzas of all writers are collected behind those at hand, exactly when no writer fails. -/
theorem collectStanzas_eq_ok_iff_append :
    (collectStanzas fileKey writers done).run = .ok stanzas ↔
      ∃ written, Writes fileKey writers written ∧ stanzas = done ++ written := by
  induction writers generalizing done with
  | nil =>
      refine ⟨?_, ?_⟩
      · intro h
        obtain rfl : done = stanzas := Except.ok.inj h
        exact ⟨[], .nil, (List.append_nil _).symm⟩
      · intro h
        obtain ⟨written, hwrites, rfl⟩ := h
        cases hwrites
        rw [List.append_nil]
        rfl
  | cons writer writers ih =>
      cases hanswer : (writer fileKey).run with
      | error e =>
          have hwriter : writer fileKey = pure (.error e) := hanswer
          rw [collectStanzas, hwriter, pure_bind]
          refine ⟨?_, ?_⟩
          · intro h
            exact absurd (show Except.error e = Except.ok stanzas from h) (by simp)
          · intro h
            obtain ⟨written, hwrites, -⟩ := h
            cases hwrites with
            | cons hown _ => exact absurd (hanswer.symm.trans hown) (by simp)
      | ok own =>
          have hwriter : writer fileKey = pure (.ok own) := hanswer
          rw [collectStanzas, hwriter, pure_bind, ih]
          refine ⟨?_, ?_⟩
          · intro h
            obtain ⟨others, hothers, rfl⟩ := h
            exact ⟨own ++ others, .cons hanswer hothers, List.append_assoc ..⟩
          · intro h
            obtain ⟨written, hwrites, rfl⟩ := h
            cases hwrites with
            | cons hown hothers =>
                obtain rfl := Except.ok.inj (hanswer.symm.trans hown)
                exact ⟨_, hothers, (List.append_assoc ..).symm⟩

/-- The stanzas of all writers are collected exactly when no writer fails. -/
theorem collectStanzas_eq_ok_iff :
    (collectStanzas fileKey writers []).run = .ok stanzas ↔ Writes fileKey writers stanzas := by
  rw [collectStanzas_eq_ok_iff_append]
  refine ⟨?_, ?_⟩
  · intro h
    obtain ⟨written, hwrites, rfl⟩ := h
    exact hwrites
  · intro h
    exact ⟨stanzas, h, rfl⟩

variable {source rest last after : RandomSource} {nonce : FixedBytes Format.payloadNonceSize}

/-- Under a key that was not destroyed the header and the next random bytes are written. -/
theorem sealHeader_of_live (h : fileKey.destroyed = false)
    (hdraw : rest.draw Format.payloadNonceSize = (nonce, last)) (stanzas : List Stanza) :
    ∃ payload, payloadKey fileKey nonce = .ok payload ∧
      sealHeader fileKey stanzas rest =
        (.ok (Header.written ⟨stanzas, Header.expectedMac fileKey (Header.coveredBytes stanzas)⟩ ++
          nonce.bytes, payload), last) := by
  obtain ⟨payload, hpayload, -⟩ := payloadKey_of_live h nonce
  refine ⟨payload, hpayload, ?_⟩
  rw [sealHeader, Header.encode_of_live h]
  simp only [hdraw, hpayload]

/-- A new file key was not destroyed. -/
theorem generateFileKey_live (hkey : generateFileKey source = (fileKey, rest)) :
    fileKey.destroyed = false :=
  congrArg (fun drawn => drawn.1.destroyed) hkey.symm

/-- Writing the beginning of a file succeeds exactly when there are writers and none of them fails.
The bytes are the header for their stanzas and a nonce, from which the payload key is derived. -/
theorem encryptHeader_eq_ok_iff (hkey : generateFileKey source = (fileKey, rest))
    (hdraw : rest.draw Format.payloadNonceSize = (nonce, last)) {bytes : Bytes}
    {payload : CipherKey} :
    (encryptHeader writers source).run = (.ok (bytes, payload), after) ↔
      writers ≠ [] ∧ after = last ∧ payloadKey fileKey nonce = .ok payload ∧
        ∃ stanzas, Writes fileKey writers stanzas ∧ bytes = Header.written
          ⟨stanzas, Header.expectedMac fileKey (Header.coveredBytes stanzas)⟩ ++ nonce.bytes := by
  cases writers with
  | nil =>
      refine ⟨?_, ?_⟩
      · intro h
        have hresult := congrArg Prod.fst h
        exact absurd hresult (by simp [encryptHeader])
      · intro h
        exact absurd rfl h.1
  | cons writer writers =>
      rw [encryptHeader, if_neg (by simp), hkey]
      cases hcollect : (collectStanzas fileKey (writer :: writers) []).run with
      | error e =>
          have hanswer : collectStanzas fileKey (writer :: writers) [] = pure (.error e) := hcollect
          simp only [hanswer, pure_bind]
          refine ⟨?_, ?_⟩
          · intro h
            exact absurd (congrArg Prod.fst h) (by simp)
          · intro h
            obtain ⟨-, -, -, stanzas, hwrites, -⟩ := h
            have hok := collectStanzas_eq_ok_iff.mpr hwrites
            exact absurd (hcollect.symm.trans hok) (by simp)
      | ok written =>
          have hanswer : collectStanzas fileKey (writer :: writers) [] = pure (.ok written) :=
            hcollect
          obtain ⟨key, hderive, hseal⟩ :=
            sealHeader_of_live (generateFileKey_live hkey) hdraw written
          simp only [hanswer, pure_bind, hseal]
          refine ⟨?_, ?_⟩
          · intro h
            obtain ⟨hresult, rfl⟩ := Prod.mk.inj h
            obtain ⟨rfl, rfl⟩ := Prod.mk.inj (Except.ok.inj hresult)
            exact ⟨by simp, rfl, hderive, written, collectStanzas_eq_ok_iff.mp hcollect, rfl⟩
          · intro h
            obtain ⟨-, rfl, hpayload, stanzas, hwrites, rfl⟩ := h
            obtain rfl := Except.ok.inj (hderive.symm.trans hpayload)
            have hsame := hcollect.symm.trans (collectStanzas_eq_ok_iff.mpr hwrites)
            obtain rfl := Except.ok.inj hsame
            rfl

end AgeFile
