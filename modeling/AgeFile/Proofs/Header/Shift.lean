import AgeFile.Proofs.Header.Checked
import AgeFile.Proofs.Header.Failure
import AgeFile.Proofs.Stanza.Shift

/-!
# Reading does not depend on the place

A stanza or a MAC line is read from an offset of an input as it is read from the front of what
follows the offset. Read `parseAt?_drop` first: it says this for every outcome, and for the readers
that keep the whole input beside those that keep what is left of it.
-/

namespace AgeFile

namespace Header

variable {cursor next : Cursor} {mac : Mac} {e : Error}

/-- A MAC line is refused in the same way behind more bytes. -/
theorem MacFailure.shift (h : MacFailure cursor e) (count : Nat) :
    MacFailure (cursor.shift count) (e.shift count) := by
  cases h with
  | missing hshort => exact .missing hshort
  | noSpace htext hrest hfirst => exact .noSpace htext hrest hfirst
  | @noLineFeed last text tail htext hrest hlast =>
      have hlength : Format.footerLength = 45 := rfl
      have hplace : cursor.offset + Format.footerLength - 1 + count =
          cursor.offset + count + Format.footerLength - 1 := by omega
      rw [Error.shift, hplace]
      exact .noLineFeed htext hrest hlast
  | fault htext hrest hdecode =>
      rw [Error.shift, Nat.add_right_comm]
      exact .fault htext hrest hdecode

/-- Whatever reading a MAC line comes to, it comes to behind more bytes. -/
theorem readMac_shift (cursor : Cursor) (count : Nat) :
    readMac (cursor.shift count) =
      shifted count (Prod.map id (Cursor.shift count)) (readMac cursor) := by
  cases hread : readMac cursor with
  | error e => exact readMac_eq_error_iff.mpr ((readMac_eq_error_iff.mp hread).shift count)
  | ok found =>
      obtain ⟨mac, next⟩ := found
      exact readMac_eq_ok_iff.mpr ((readMac_eq_ok_iff.mp hread).shift count)

end Header

/-! ## From any offset -/

/-- What is read from an offset of an input, a stanza or none, a MAC, or an error, is what is read
from the front of the bytes that follow the offset. Only the end of what was read and the place of
an error differ: they are counted from the front of the whole input. The same holds of the readers
that look up bytes in the whole input. -/
theorem parseAt?_drop {input : Bytes} {offset : Nat} (h : offset ≤ input.length) :
    (∃ near, Stanza.parseAt? (input.drop offset) 0 = some near ∧
      Stanza.parseAt? input offset =
        some (shifted offset (Option.map (Prod.map id (· + offset))) near) ∧
      Checked.readStanza (input.drop offset) 0 = some near ∧
      Checked.readStanza input offset =
        some (shifted offset (Option.map (Prod.map id (· + offset))) near)) ∧
    ∃ near, Header.parseMacAt? (input.drop offset) 0 = some near ∧
      Header.parseMacAt? input offset = some (shifted offset (Prod.map id (· + offset)) near) ∧
      Checked.readMac (input.drop offset) 0 = some near ∧
      Checked.readMac input offset = some (shifted offset (Prod.map id (· + offset)) near) := by
  refine ⟨?_, ?_⟩
  · obtain ⟨near, hnear, hfar⟩ := Cursor.at?_drop (Option.map Checked.atOffset)
      (fun count => Option.map (Prod.map id (· + count))) Stanza.read_shift
      (fun _ found => by cases found <;> rfl) h
    rw [Checked.readStanza_eq, Checked.readStanza_eq]
    exact ⟨near, hnear, hfar, hnear, hfar⟩
  · obtain ⟨near, hnear, hfar⟩ := Cursor.at?_drop Checked.atOffset
      (fun count => Prod.map id (· + count)) Header.readMac_shift (fun _ _ => rfl) h
    rw [Checked.readMac_eq, Checked.readMac_eq]
    exact ⟨near, hnear, hfar, hnear, hfar⟩

/-- A stanza behind three bytes, with a control character in its argument. -/
def controlByteInArgument : Bytes :=
  ascii "---" ++ ascii "-> x a" ++ [0x01, lineFeed, lineFeed]

/-- The control character is the seventh byte of the stanza and the tenth of the input. -/
theorem parseAt?_controlByteInArgument :
    3 ≤ controlByteInArgument.length ∧
      Stanza.parseAt? (controlByteInArgument.drop 3) 0 =
        some (.error (.malformed 6 (.tokenByte 0x01))) ∧
      Stanza.parseAt? controlByteInArgument 3 =
        some (.error (.malformed 9 (.tokenByte 0x01))) := by
  have hle : 3 ≤ controlByteInArgument.length := by decide
  have hfront : Stanza.parseAt? (controlByteInArgument.drop 3) 0 =
      some (.error (.malformed 6 (.tokenByte 0x01))) := rfl
  obtain ⟨⟨near, hnear, hfar, -⟩, -⟩ := parseAt?_drop hle
  obtain rfl := Option.some.inj (hfront.symm.trans hnear)
  exact ⟨hle, hfront, hfar⟩

end AgeFile
