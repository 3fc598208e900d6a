import AgeFile.Header.Authentication
import AgeFile.Proofs.Header.Delimiting
import AgeFile.Proofs.KeySchedule.Derivation

/-!
# What the MAC of a header covers

A header is verified by writing its stanzas again, yet the MAC covers the very bytes that were read.
Read `verifyMac_iff_encode` first: a header that was read verifies under a key exactly when writing
its stanzas under that key gives back the header and the bytes it was read from. `encode_of_live`
and `verifyMac_of_live` say what writing and verifying do under a key that was not destroyed.
-/

namespace AgeFile.Header

/-- The MAC that covered bytes have under a file key: their HMAC-SHA-256 tag, whose key is derived
from the file key without a salt. -/
def expectedMac (fileKey : FileKey) (covered : Bytes) : Mac :=
  Hmac.tag (Hkdf.derive fileKey.storage.bytes (List.replicate Sha256.digestSize 0) (ascii "header")
    Sha256.digestSize) covered

variable {fileKey : FileKey}

/-- Writing stanzas under a key that was not destroyed never fails: the header has the MAC of its
covered bytes, and its written form is what was written. -/
theorem encode_of_live (h : fileKey.destroyed = false) (stanzas : List Stanza) :
    encode stanzas fileKey = .ok (⟨stanzas, expectedMac fileKey (coveredBytes stanzas)⟩,
      written ⟨stanzas, expectedMac fileKey (coveredBytes stanzas)⟩) := by
  obtain ⟨key, hkey, hlive, hbytes⟩ := headerKey_of_live h
  have htag : key.tag (coveredBytes stanzas) =
      .ok (expectedMac fileKey (coveredBytes stanzas)) := by
    rw [Key.tag_of_live hlive, hbytes]
    rfl
  rw [encode, hkey, ok_bind, appendMac, htag]
  rfl

/-- Verifying under a key that was not destroyed compares MACs and can fail in one way. -/
theorem verifyMac_of_live (h : fileKey.destroyed = false) (header : Header) :
    header.verifyMac fileKey =
      if header.mac = expectedMac fileKey (coveredBytes header.stanzas) then .ok ()
      else .error .headerMacMismatch := by
  obtain ⟨key, hkey, hlive, hbytes⟩ := headerKey_of_live h
  rw [verifyMac, hkey, ok_bind, verifyMacOf, Key.verifyTag_of_live hlive, hbytes, ok_bind]
  by_cases hmac : header.mac = expectedMac fileKey (coveredBytes header.stanzas)
  · have hsame : ((expectedMac fileKey (coveredBytes header.stanzas)).bytes ==
        header.mac.bytes) = true := by
      rw [hmac, beq_self_eq_true]
    rw [if_pos hmac, ← expectedMac, hsame]
    rfl
  · have hdiffer : ((expectedMac fileKey (coveredBytes header.stanzas)).bytes ==
        header.mac.bytes) = false := by
      rw [beq_eq_false_iff_ne]
      intro hbytes
      exact hmac (FixedBytes.ext hbytes.symm)
    rw [if_neg hmac, ← expectedMac, hdiffer]
    rfl

/-- A header verifies under a key that was not destroyed exactly when it has the expected MAC. -/
theorem verifyMac_eq_ok_iff (h : fileKey.destroyed = false) {header : Header} :
    header.verifyMac fileKey = .ok () ↔
      header.mac = expectedMac fileKey (coveredBytes header.stanzas) := by
  rw [verifyMac_of_live h]
  split
  · rename_i hmac
    exact ⟨fun _ => hmac, fun _ => rfl⟩
  · rename_i hmac
    exact ⟨fun herror => absurd herror (by simp), fun hsame => absurd hsame hmac⟩

variable {context : MacContext} {macKey : MacKey context}

/-- A MAC key that was destroyed appends nothing to a buffer. -/
theorem appendMac_of_destroyed (h : macKey.destroyed = true) (buffer : Bytes) :
    appendMac macKey buffer = (.error (.keyDestroyed context.name), buffer) := by
  rw [appendMac, Key.tag_of_destroyed h]

/-- No MAC verifies under a MAC key that was destroyed. -/
theorem verifyMacOf_of_destroyed (h : macKey.destroyed = true) (covered : Bytes) (mac : Mac) :
    verifyMacOf macKey covered mac = .error (.keyDestroyed context.name) := by
  rw [verifyMacOf, Key.verifyTag_of_destroyed h]
  rfl

/-- No header is written under a key that was destroyed. -/
theorem encode_of_destroyed (h : fileKey.destroyed = true) (stanzas : List Stanza) :
    encode stanzas fileKey = .error (.keyDestroyed "file key") := by
  rw [encode, headerKey_of_destroyed h]
  rfl

/-- Nothing verifies under a key that was destroyed. -/
theorem verifyMac_of_destroyed (h : fileKey.destroyed = true) (header : Header) :
    header.verifyMac fileKey = .error (.keyDestroyed "file key") := by
  rw [verifyMac, headerKey_of_destroyed h]
  rfl

/-- The covered bytes of a header are what stands before its MAC line. -/
theorem take_written (header : Header) :
    header.written.take (header.written.length - Format.footerLength) =
      coveredBytes header.stanzas := by
  rw [length_written, Nat.add_sub_cancel, written, List.take_left]

variable {input : Bytes} {limits : HeaderLimits} {header : Header} {offset : Nat}

/-- The bytes that a header was read from are its written form, and those before the MAC line are
the ones that the MAC covers. -/
theorem take_of_parse (h : parse input limits = .ok (header, offset)) :
    offset = header.written.length ∧ input.take offset = header.written ∧
      input.take (offset - Format.footerLength) = coveredBytes header.stanzas := by
  obtain ⟨-, -, hinput, htake⟩ := parse_eq_ok_iff_written.mp h
  have hoffset : offset = header.written.length := by
    rw [← htake, List.length_take_of_le hinput]
  have hcovered := take_written header
  rw [← hoffset, ← htake, List.take_take, Nat.min_eq_left (Nat.sub_le _ _)] at hcovered
  exact ⟨hoffset, htake, hcovered⟩

/-- A header that was read from bytes which begin as a written header does, up to the MAC line, has
the stanzas of the written one. -/
theorem stanzas_eq_of_take_eq {other : Header} (h : parse input limits = .ok (header, offset))
    (htake : input.take (other.written.length - Format.footerLength) =
      other.written.take (other.written.length - Format.footerLength)) :
    header.stanzas = other.stanzas := by
  obtain ⟨-, hread, -⟩ := take_of_parse h
  rw [take_written] at htake
  have hfirst := List.take_append_drop offset input
  have hsecond := List.take_append_drop (other.written.length - Format.footerLength) input
  rw [hread, written, List.append_assoc] at hfirst
  rw [htake] at hsecond
  exact stanzas_eq_of_coveredBytes_append (hfirst.trans hsecond.symm)

/-- What is authenticated is what was read. A header that was read verifies under a key that was not
destroyed exactly when writing its stanzas gives back the header and the bytes it was read from, and
otherwise its MAC is refused. So whatever verifies beside a header that was written for the same key
has other covered bytes and their MAC, and a change to the MAC line alone never verifies. -/
theorem verifyMac_iff_encode (hlive : fileKey.destroyed = false)
    (hparse : parse input limits = .ok (header, offset)) :
    (header.verifyMac fileKey = .ok () ↔
      encode header.stanzas fileKey = .ok (header, input.take offset)) ∧
    (header.verifyMac fileKey ≠ .ok () →
      header.verifyMac fileKey = .error .headerMacMismatch) ∧
    ∀ stanzas, ∃ sealed bytes, encode stanzas fileKey = .ok (sealed, bytes) ∧
      (header.verifyMac fileKey = .ok () → input.take offset ≠ bytes →
        input.take (offset - Format.footerLength) ≠
            bytes.take (bytes.length - Format.footerLength) ∧
          input.take offset = input.take (offset - Format.footerLength) ++
            encodeFooter (expectedMac fileKey (input.take (offset - Format.footerLength)))) ∧
      (input.take (bytes.length - Format.footerLength) =
          bytes.take (bytes.length - Format.footerLength) →
        input.take bytes.length ≠ bytes →
        header.verifyMac fileKey = .error .headerMacMismatch) := by
  obtain ⟨hoffset, hread, hcovered⟩ := take_of_parse hparse
  have hmismatch : header.verifyMac fileKey ≠ .ok () →
      header.verifyMac fileKey = .error .headerMacMismatch := by
    intro h
    rw [verifyMac_of_live hlive] at h ⊢
    rw [if_neg]
    intro hmac
    exact h (if_pos hmac)
  refine ⟨?_, hmismatch, ?_⟩
  · rw [verifyMac_eq_ok_iff hlive, encode_of_live hlive, hread]
    obtain ⟨stanzas, mac⟩ := header
    refine ⟨?_, ?_⟩
    · intro hmac
      rw [← hmac]
    · intro h
      obtain ⟨hheader, -⟩ := Prod.mk.inj (Except.ok.inj h)
      exact (congrArg Header.mac hheader).symm
  · intro stanzas
    refine ⟨_, _, encode_of_live hlive stanzas, ?_, ?_⟩
    · intro hverify hdiffer
      have hmac := (verifyMac_eq_ok_iff hlive).mp hverify
      refine ⟨?_, by rw [hcovered, hread, written, hmac]⟩
      -- The same covered bytes would have the same MAC, and so be the same header.
      intro hsame
      rw [hcovered, take_written] at hsame
      refine hdiffer ?_
      rw [hread, written, hmac, hsame, written]
    · intro hsame hdiffer
      refine hmismatch fun hverify => hdiffer ?_
      have hstanzas : header.stanzas = stanzas := stanzas_eq_of_take_eq hparse hsame
      have hmac := (verifyMac_eq_ok_iff hlive).mp hverify
      rw [hstanzas] at hmac
      have hheader : header = ⟨stanzas, expectedMac fileKey (coveredBytes stanzas)⟩ := by
        rw [← hmac, ← hstanzas]
      rw [← hheader, ← hoffset, hread]

/-- A header with one stanza, written under a key of zeros, is read back before other bytes within
the tightest limits, and verifies under that key. -/
theorem verifyMac_written_hello :
    ∃ hello header bytes, Stanza.create "test" [] (ascii "hello") = .ok hello ∧
      encode [hello] (Key.ofFixed (FixedBytes.zero _)) = .ok (header, bytes) ∧
      parse (bytes ++ [0xff]) ⟨bytes.length, 1⟩ = .ok (header, bytes.length) ∧
      header.verifyMac (Key.ofFixed (FixedBytes.zero _)) = .ok () := by
  obtain ⟨hello, hcreate⟩ : ∃ hello, Stanza.create "test" [] (ascii "hello") = .ok hello :=
    ⟨⟨⟨ascii "test", by decide, List.all_eq_true.mp (by decide)⟩, [], ascii "hello"⟩,
      Stanza.create_eq_ok_iff.mpr ⟨by decide, rfl, rfl⟩⟩
  have hencode : encode [hello] (Key.ofFixed (FixedBytes.zero _)) = .ok _ :=
    encode_of_live rfl [hello]
  have hparse : ∀ header : Header, header.stanzas = [hello] →
      parse (header.written ++ [0xff]) ⟨header.written.length, 1⟩ =
        .ok (header, header.written.length) := by
    intro header hstanzas
    refine parse_written_append ?_ (Nat.le_refl _) [0xff]
    rw [hstanzas]
    exact Nat.le_refl 1
  refine ⟨hello, _, _, hcreate, hencode, hparse _ rfl, ?_⟩
  refine (verifyMac_iff_encode rfl (hparse _ rfl)).1.mpr ?_
  rw [List.take_left]
  exact hencode

end AgeFile.Header
