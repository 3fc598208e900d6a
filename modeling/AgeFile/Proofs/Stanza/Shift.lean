import AgeFile.Proofs.Cursor.Shift
import AgeFile.Proofs.Stanza.Failure

/-!
# Stanzas behind more bytes

A stanza is read in the same way wherever it stands. `ReadFailure.shift` says it for stanzas that
are refused, part by part for the line of words and the lines of the body, and `read_shift` for
every outcome.
-/

namespace AgeFile.Stanza

variable {cursor next : Cursor} {offset : Nat} {word line text : Bytes} {done : List Bytes}
  {e : Error}

/-- A word is refused at the same place behind more bytes. -/
theorem TokenFailure.shift (h : TokenFailure offset word e) (count : Nat) :
    TokenFailure (offset + count) word (e.shift count) := by
  cases h with
  | empty => exact .empty
  | @byte before after found hbefore hfound =>
      rw [Error.shift, Nat.add_right_comm]
      exact .byte hbefore hfound

/-- A line of words is refused in the same way behind more bytes. -/
theorem WordsFailure.shift (h : WordsFailure offset line e) (count : Nat) :
    WordsFailure (offset + count) line (e.shift count) := by
  cases h with
  | marker hhead => exact .marker hhead
  | @token before word after _ hline hword =>
      have hplace : offset + Stanza.marker.length + 1 + (spaced before).length + count =
          offset + count + Stanza.marker.length + 1 + (spaced before).length := by omega
      have hmoved := hword.shift count
      rw [hplace] at hmoved
      exact .token hline hmoved
  | missing hline => exact .missing hline

/-- Words are taken in the same way behind more bytes. -/
theorem readWords_shift {words : Token × List Token} (h : readWords offset line = .ok words)
    (count : Nat) : readWords (offset + count) line = .ok words :=
  readWords_eq_ok_iff.mpr (readWords_eq_ok_iff.mp h)

/-- Body lines are refused in the same way behind more bytes. -/
theorem LinesFailure.shift (h : LinesFailure cursor e) (count : Nat) :
    LinesFailure (cursor.shift count) (e.shift count) := by
  induction h with
  | cut hcut => exact .cut hcut
  | long hline hlong => exact .long (Cursor.readLine_shift hline count) hlong
  | later hline hfull _ ih => exact .later (Cursor.readLine_shift hline count) hfull ih

/-- Body lines that are read are read behind more bytes. -/
theorem readLines_shift (h : readLines cursor done = .ok (text, next)) (count : Nat) :
    readLines (cursor.shift count) done = .ok (text, next.shift count) := by
  obtain ⟨read, hfeed, hspans, rfl⟩ := spans_of_readLines h
  exact readLines_of_spans hfeed (hspans.shift count)

/-- A stanza is refused in the same way behind more bytes. -/
theorem ReadFailure.shift (h : ReadFailure cursor e) (count : Nat) :
    ReadFailure (cursor.shift count) (e.shift count) := by
  cases h with
  | cut hmarker hcut => exact .cut hmarker hcut
  | words hmarker hline hwords =>
      exact .words hmarker (Cursor.readLine_shift hline count) (hwords.shift count)
  | lines hmarker hline hwords hlines =>
      exact .lines hmarker (Cursor.readLine_shift hline count) (readWords_shift hwords count)
        (hlines.shift count)
  | @body next last line text words fault hmarker hline hwords hlines hdecode =>
      show ReadFailure (cursor.shift count) (.malformed (next.shift count).offset (.body fault))
      exact .body hmarker (Cursor.readLine_shift hline count) (readWords_shift hwords count)
        (readLines_shift hlines count) hdecode

/-- Whatever reading a stanza comes to, it comes to behind more bytes. -/
theorem read_shift (cursor : Cursor) (count : Nat) :
    read (cursor.shift count) =
      shifted count (Option.map (Prod.map id (Cursor.shift count))) (read cursor) := by
  cases hread : read cursor with
  | error e => exact read_eq_error_iff.mpr ((read_eq_error_iff.mp hread).shift count)
  | ok found =>
      cases found with
      | none =>
          have hmarker : cursor.startsWith marker = false :=
            read_eq_ok_none_iff.mp hread
          exact read_eq_ok_none_iff.mpr hmarker
      | some found =>
          obtain ⟨stanza, next⟩ := found
          exact read_eq_ok_some_iff.mpr ((read_eq_ok_some_iff.mp hread).shift count)

end AgeFile.Stanza
