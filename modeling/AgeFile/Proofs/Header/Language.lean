import AgeFile.Proofs.Header.Codec

/-!
# The language of headers

The reader accepts what the writer writes and nothing else. Read `parse_eq_ok_iff` first: it says,
for every input and all limits, which headers are read and where they end.
-/

namespace AgeFile.Header

/-- A header is read from an input up to an offset exactly when its stanzas can be built, the limits
allow their number and the offset, and the input up to the offset is the bytes that the MAC covers,
a space, the MAC in 43 base64 characters and a line feed. What follows the offset does not change
the answer, and a header is never read from two spellings. -/
theorem parse_eq_ok_iff (input : Bytes) (limits : HeaderLimits) (header : Header) (offset : Nat) :
    (parse input limits = .ok (header, offset) ↔
      (∀ stanza ∈ header.stanzas,
        Stanza.create stanza.tag.text (stanza.args.map Token.text) stanza.body = .ok stanza) ∧
      header.stanzas.length ≤ limits.maxStanzas ∧ offset ≤ limits.maxHeaderLength ∧
      offset ≤ input.length ∧ (Base64.encode header.mac.bytes).length = 43 ∧
      input.take offset =
        coveredBytes header.stanzas ++ [space] ++ Base64.encode header.mac.bytes ++ [lineFeed]) ∧
    (parse input limits = .ok (header, offset) → ∀ tail,
      parse (input.take offset ++ tail) limits = .ok (header, offset)) ∧
    (parse input limits = .ok (header, offset) → ∀ other otherLimits otherOffset,
      parse other otherLimits = .ok (header, otherOffset) →
        other.take otherOffset = input.take offset) := by
  have hwritten : coveredBytes header.stanzas ++ [space] ++ Base64.encode header.mac.bytes ++
      [lineFeed] = header.written := by
    simp [written, encodeFooter]
  refine ⟨?_, ?_, ?_⟩
  · rw [parse_eq_ok_iff_written, hwritten]
    refine ⟨?_, ?_⟩
    · intro h
      obtain ⟨hcount, hlength, hinput, htake⟩ := h
      exact ⟨fun stanza _ => Stanza.create_eq_ok_iff.mpr ⟨rfl, rfl, rfl⟩, hcount, hlength, hinput,
        length_encode_mac header.mac, htake⟩
    · intro h
      obtain ⟨-, hcount, hlength, hinput, -, htake⟩ := h
      exact ⟨hcount, hlength, hinput, htake⟩
  · intro h tail
    obtain ⟨hcount, hlength, hinput, htake⟩ := parse_eq_ok_iff_written.mp h
    have hoffset : (input.take offset).length = offset := List.length_take_of_le hinput
    refine parse_eq_ok_iff_written.mpr ⟨hcount, hlength, ?_, ?_⟩
    · rw [List.length_append]
      omega
    · rw [List.take_append_of_le_length (by omega), List.take_of_length_le (by omega), htake]
  · intro h other otherLimits otherOffset hother
    obtain ⟨-, -, -, htake⟩ := parse_eq_ok_iff_written.mp h
    obtain ⟨-, -, -, hotherTake⟩ := parse_eq_ok_iff_written.mp hother
    rw [hotherTake, htake]

end AgeFile.Header
