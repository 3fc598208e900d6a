import AgeFile.Proofs.Header.Authentication
import AgeFile.Proofs.Header.Checked
import AgeFile.Proofs.Header.Failure

/-!
# The MAC line

From any offset of an input, a MAC is read exactly where its line stands, and the line of a MAC is
the only spelling of it. Read `parseMacAt?_eq_ok_iff` first. `exists_encode_mac_iff` says which
texts spell a MAC by their symbols alone: 43 symbols, of which the last one stands for a multiple of
four. Every other outcome is one of the failures that `MacFailure` lists, and a text that is read
never has another length than a MAC.
-/

namespace AgeFile.Header

variable {input : Bytes} {offset stop : Nat} {mac : Mac} {e : Error}

/-- From the offset of a position the MAC line there is read. -/
theorem parseMacAt?_of_le (h : offset ≤ input.length) :
    parseMacAt? input offset =
      some ((readMac ⟨offset, input.drop offset⟩).map Checked.atOffset) := by
  rw [parseMacAt?, Cursor.at?, if_pos h]
  rfl

/-- A MAC is read from an offset up to another exactly when its line stands between the two. -/
theorem parseMacAt?_eq_ok_iff :
    parseMacAt? input offset = some (.ok (mac, stop)) ↔
      Checked.slice? input offset stop = some (encodeFooter mac) := by
  refine ⟨?_, ?_⟩
  · intro h
    obtain ⟨cursor, ⟨found, next⟩, hin, rfl, hread, hview⟩ := Checked.exists_cursor h
    obtain ⟨rfl, rfl⟩ := Prod.mk.inj hview
    exact (Checked.slice?_offset_eq_some_iff hin).mpr ⟨next, readMac_eq_ok_iff.mp hread, rfl⟩
  · intro h
    have hin := Checked.isIn_of_slice? h
    obtain ⟨next, hspans, rfl⟩ := (Checked.slice?_offset_eq_some_iff hin).mp h
    rw [parseMacAt?_of_le hin.offset_le, readMac_eq_ok_iff.mpr hspans]
    rfl

/-- A MAC cannot be read from an offset in the input exactly when its line fails to stand there in
one of these ways. -/
theorem parseMacAt?_eq_error_iff (h : offset ≤ input.length) :
    parseMacAt? input offset = some (.error e) ↔ MacFailure ⟨offset, input.drop offset⟩ e := by
  rw [parseMacAt?_of_le h, Option.some_inj, map_eq_error_iff, readMac_eq_error_iff]

/-- A text of 43 characters spells a MAC exactly when all of them are symbols and the last one
stands for a multiple of four, since two of its bits belong to no byte. -/
theorem exists_encode_mac_iff {text : Bytes} (htext : text.length = Format.macTextLength) :
    (∃ mac : Mac, text = Base64.encode mac.bytes) ↔
      ∃ values, Base64.Spells text values ∧ values.getLastD 0 % 4 = 0 := by
  have hmac : (∃ mac : Mac, text = Base64.encode mac.bytes) ↔
      ∃ bytes, text = Base64.encode bytes := by
    refine ⟨?_, ?_⟩
    · intro h
      obtain ⟨mac, hmac⟩ := h
      exact ⟨mac.bytes, hmac⟩
    · intro h
      obtain ⟨bytes, hbytes⟩ := h
      have hlength := length_of_decode_mac htext (Base64.decode_eq_ok_iff.mpr hbytes)
      exact ⟨⟨bytes, hlength⟩, hbytes⟩
  rw [hmac, Base64.exists_encode_iff, htext]
  refine exists_congr fun values => and_congr_right fun _ => ?_
  show 3 ≠ 1 ∧ values.getLastD 0 % 4 = 0 ↔ values.getLastD 0 % 4 = 0
  exact and_iff_right (by decide)

variable {context : MacContext} {key : MacKey context}

/-- What a key that was not destroyed appends to a buffer is the line of the buffer's tag. -/
theorem appendMac_of_live (h : key.destroyed = false) (buffer : Bytes) :
    appendMac key buffer = (.ok (Hmac.tag key.content.bytes buffer),
      buffer ++ encodeFooter (Hmac.tag key.content.bytes buffer)) := by
  rw [appendMac, Key.tag_of_live h]

/-- The line of a MAC is read behind whatever bytes stand before it. -/
theorem parseMacAt?_append (before : Bytes) (mac : Mac) (tail : Bytes) :
    parseMacAt? (before ++ encodeFooter mac ++ tail) before.length =
      some (.ok (mac, before.length + 45)) := by
  refine parseMacAt?_eq_ok_iff.mpr ?_
  have hpart := Checked.slice?_append before (encodeFooter mac) tail
  rwa [length_encodeFooter] at hpart

/-- From any offset in an input, a MAC is read up to another offset exactly when that is 45 bytes
further on, in the input, and between the two stand a space, the canonical base64 of the MAC and a
line feed. So wherever the same MAC is read, it is spelled alike, and the line that was appended to
a buffer is read behind it, whatever follows. Otherwise reading fails in one of the ways that
`MacFailure` lists: not enough bytes for a line, a byte that is no space, a byte 44 further on that
is no line feed, or a text between them that is no encoding; each of them only where those before it
do not apply. The text of a MAC is 43 symbols of which the last one stands for a multiple of four;
no text of 43 characters encodes more or fewer bytes than a MAC has, so no MAC is refused for its
length. -/
theorem parseMacAt?_exact (h : offset ≤ input.length) :
    (∀ mac stop, parseMacAt? input offset = some (.ok (mac, stop)) ↔
      stop = offset + 45 ∧ Checked.slice? input offset stop =
        some ([space] ++ Base64.encode mac.bytes ++ [lineFeed])) ∧
    (∀ e, parseMacAt? input offset = some (.error e) ↔
      MacFailure ⟨offset, input.drop offset⟩ e) ∧
    (∀ place count, parseMacAt? input offset ≠
      some (.error (.malformed place (.macLength count)))) ∧
    (∀ text, text.length = 43 →
      ((∃ mac : Mac, text = Base64.encode mac.bytes) ↔
        ∃ values, Base64.Spells text values ∧ values.getLastD 0 % 4 = 0) ∧
      ∀ bytes, Base64.decode text = .ok bytes → bytes.length = 32) ∧
    (∀ mac stop, parseMacAt? input offset = some (.ok (mac, stop)) →
      ∀ other place end_, parseMacAt? other place = some (.ok (mac, end_)) →
        Checked.slice? other place end_ = Checked.slice? input offset stop) ∧
    ∀ (context : MacContext) (key : MacKey context), key.destroyed = false → ∀ buffer,
      ∃ mac written, appendMac key buffer = (.ok mac, written) ∧
        ∀ tail, parseMacAt? (written ++ tail) buffer.length =
          some (.ok (mac, buffer.length + 45)) := by
  refine ⟨?_, fun e => parseMacAt?_eq_error_iff h, ?_, ?_, ?_, ?_⟩
  · intro mac stop
    rw [parseMacAt?_eq_ok_iff]
    refine ⟨?_, And.right⟩
    intro hslice
    have hstop := Checked.stop_of_slice? hslice
    rw [length_encodeFooter] at hstop
    exact ⟨hstop, hslice⟩
  · intro place count hread
    cases (parseMacAt?_eq_error_iff h).mp hread
  · intro text htext
    exact ⟨exists_encode_mac_iff htext, fun _ => length_of_decode_mac htext⟩
  · intro mac stop hread other place end_ hother
    rw [parseMacAt?_eq_ok_iff.mp hread, parseMacAt?_eq_ok_iff.mp hother]
  · intro context key hlive buffer
    exact ⟨_, _, appendMac_of_live hlive buffer, parseMacAt?_append buffer _⟩

/-- A MAC line behind the terminator, with a bit set in its last symbol that belongs to no byte. -/
def strayBits : Bytes :=
  ascii "---" ++ space :: (List.replicate 42 0x41 ++ [0x42]) ++ [lineFeed]

/-- The stray bit is reported at the beginning of the text, so there is no MAC. -/
theorem parseMacAt?_strayBits :
    3 ≤ strayBits.length ∧
      parseMacAt? strayBits 3 = some (.error (.malformed 4 (.mac (.lastSymbol 0x42 42)))) ∧
      ∀ mac : Mac, List.replicate 42 0x41 ++ [0x42] ≠ Base64.encode mac.bytes := by
  have hle : 3 ≤ strayBits.length := by decide
  have htext : (List.replicate 42 0x41 ++ [0x42] : Bytes).length = 43 := rfl
  have hdecode : Base64.decode (List.replicate 42 0x41 ++ [0x42]) =
      .error (.lastSymbol 0x42 42) := rfl
  obtain ⟨-, hfails, -⟩ := parseMacAt?_exact hle
  refine ⟨hle, (hfails _).mpr (MacFailure.fault htext rfl hdecode), ?_⟩
  intro mac hmac
  have hread := Base64.decode_eq_ok_iff.mpr hmac
  rw [hdecode] at hread
  exact absurd hread (by simp)

end AgeFile.Header
