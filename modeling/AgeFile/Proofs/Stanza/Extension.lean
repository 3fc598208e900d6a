import AgeFile.Proofs.Cursor.Extension
import AgeFile.Proofs.Stanza.Failure

/-!
# Stanzas in a longer input

Read `ReadFailure.extend` first: a stanza that is refused for what it holds is refused in the same
way whatever follows. A stanza that the input ends within is refused because it is cut off, and one
more byte moves that end (`ReadFailure.extend_of_truncated`).
-/

namespace AgeFile.Stanza

variable {cursor next : Cursor} {done : List Bytes} {line text word : Bytes} {e : Error}
  {offset needed available : Nat}

/-! ## What is refused -/

/-- A word is refused with a defect of its own line. -/
theorem TokenFailure.eq_malformed (h : TokenFailure offset word e) :
    ∃ place defect, e = .malformed place defect ∧
      ∀ found, defect ≠ .stanzaOrTerminator found := by
  cases h with
  | empty => exact ⟨_, _, rfl, by simp⟩
  | byte _ _ => exact ⟨_, _, rfl, by simp⟩

/-- A line of words is refused with a defect of its own. -/
theorem WordsFailure.eq_malformed (h : WordsFailure offset line e) :
    ∃ place defect, e = .malformed place defect ∧
      ∀ found, defect ≠ .stanzaOrTerminator found := by
  cases h with
  | marker _ => exact ⟨_, _, rfl, by simp⟩
  | token _ hword => exact hword.eq_malformed
  | missing _ => exact ⟨_, _, rfl, by simp⟩

/-- Body lines are cut off, or one of them is too long. -/
theorem LinesFailure.eq_truncated_or_malformed (h : LinesFailure cursor e) :
    (∃ available, e = .truncated (available + 1) available) ∨
      ∃ place length, e = .malformed place (.longBodyLine length) := by
  induction h with
  | cut _ => exact Or.inl ⟨_, rfl⟩
  | long _ _ => exact Or.inr ⟨_, _, rfl⟩
  | later _ _ _ ih => exact ih

/-- A stanza is cut off, or it is refused with a defect of its own. -/
theorem ReadFailure.eq_truncated_or_malformed (h : ReadFailure cursor e) :
    (∃ available, e = .truncated (available + 1) available) ∨
      ∃ place defect, e = .malformed place defect ∧
        ∀ found, defect ≠ .stanzaOrTerminator found := by
  cases h with
  | cut _ _ => exact Or.inl ⟨_, rfl⟩
  | words _ _ hwords => exact Or.inr hwords.eq_malformed
  | lines _ _ _ hlines =>
      rcases hlines.eq_truncated_or_malformed with hcut | ⟨place, length, rfl⟩
      · exact Or.inl hcut
      · exact Or.inr ⟨place, _, rfl, by simp⟩
  | body _ _ _ _ _ => exact Or.inr ⟨_, _, rfl, by simp⟩

/-! ## What more bytes leave as it is -/

/-- Body lines that are read are read from a longer input. -/
theorem readLines_extend (h : readLines cursor done = .ok (text, next)) (tail : Bytes) :
    readLines (cursor.extend tail) done = .ok (text, next.extend tail) := by
  obtain ⟨read, hfeed, hspans, rfl⟩ := spans_of_readLines h
  exact readLines_of_spans hfeed (hspans.extend tail)

/-- A marker that stands at a position stands there in a longer input. -/
theorem startsWith_marker_extend (h : cursor.startsWith marker = true) (tail : Bytes) :
    (cursor.extend tail).startsWith marker = true :=
  ((Cursor.startsWith_iff_spans.mp h).extend tail).startsWith

/-- Body lines that are not cut off fail in the same way in a longer input. -/
theorem LinesFailure.extend (h : LinesFailure cursor e)
    (hcut : ∀ needed available, e ≠ .truncated needed available) (tail : Bytes) :
    LinesFailure (cursor.extend tail) e := by
  induction h with
  | cut _ => exact absurd rfl (hcut _ _)
  | long hline hlong => exact .long (Cursor.readLine_extend hline tail) hlong
  | later hline hfull _ ih => exact .later (Cursor.readLine_extend hline tail) hfull (ih hcut)

/-- A stanza that is not cut off fails in the same way in a longer input. -/
theorem ReadFailure.extend (h : ReadFailure cursor e)
    (hcut : ∀ needed available, e ≠ .truncated needed available) (tail : Bytes) :
    ReadFailure (cursor.extend tail) e := by
  cases h with
  | cut _ _ => exact absurd rfl (hcut _ _)
  | words hmarker hline hwords =>
      exact .words (startsWith_marker_extend hmarker tail) (Cursor.readLine_extend hline tail)
        hwords
  | lines hmarker hline hwords hlines =>
      exact .lines (startsWith_marker_extend hmarker tail) (Cursor.readLine_extend hline tail)
        hwords (hlines.extend hcut tail)
  | @body next last line text words fault hmarker hline hwords hlines hdecode =>
      show ReadFailure (cursor.extend tail) (.malformed (next.extend tail).offset (.body fault))
      exact .body (startsWith_marker_extend hmarker tail) (Cursor.readLine_extend hline tail)
        hwords (readLines_extend hlines tail) hdecode

/-! ## What one more byte changes -/

variable {byte : UInt8}

/-- A line that is cut off is cut off later if the next byte does not end it. -/
theorem truncated_extend (hcut : lineFeed ∉ cursor.rest) (hbyte : byte ≠ lineFeed) :
    lineFeed ∉ (cursor.extend [byte]).rest ∧
      (cursor.extend [byte]).rest.length = cursor.rest.length + 1 := by
  refine ⟨?_, ?_⟩
  · rw [Cursor.rest_extend, List.mem_append, List.mem_singleton, not_or]
    exact ⟨hcut, hbyte.symm⟩
  · rw [Cursor.rest_extend, List.length_append, List.length_singleton]

/-- Body lines that are cut off are cut off later if the next byte ends no line. -/
theorem LinesFailure.extend_of_truncated (h : LinesFailure cursor (.truncated needed available))
    (hbyte : byte ≠ lineFeed) :
    LinesFailure (cursor.extend [byte]) (.truncated (needed + 1) (available + 1)) := by
  generalize he : Error.truncated needed available = e at h
  induction h with
  | cut hcut =>
      obtain ⟨rfl, rfl⟩ := Error.truncated.inj he
      obtain ⟨hfeed, hlength⟩ := truncated_extend hcut hbyte
      rw [← hlength]
      exact .cut hfeed
  | long _ _ => exact absurd he (by simp)
  | later hline hfull _ ih => exact .later (Cursor.readLine_extend hline _) hfull (ih he)

/-- A stanza that is cut off is cut off later if the next byte ends no line. -/
theorem ReadFailure.extend_of_truncated (h : ReadFailure cursor (.truncated needed available))
    (hbyte : byte ≠ lineFeed) :
    ReadFailure (cursor.extend [byte]) (.truncated (needed + 1) (available + 1)) := by
  cases h with
  | cut hmarker hcut =>
      obtain ⟨hfeed, hlength⟩ := truncated_extend hcut hbyte
      rw [← hlength]
      exact .cut (startsWith_marker_extend hmarker _) hfeed
  | words _ _ hwords =>
      obtain ⟨place, defect, he, -⟩ := hwords.eq_malformed
      exact absurd he (by simp)
  | lines hmarker hline hwords hlines =>
      exact .lines (startsWith_marker_extend hmarker _) (Cursor.readLine_extend hline _) hwords
        (hlines.extend_of_truncated hbyte)

end AgeFile.Stanza
