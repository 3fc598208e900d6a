import AgeFile.Proofs.Cursor.Position
import AgeFile.Proofs.Error.NamedByte
import AgeFile.Proofs.Stanza.Failure

/-!
# Where the errors of a stanza point

Read `Error.PlacedFrom` first: an error of a reader says that the input is too short, or it points
at a byte of the input that the reader has come to, and if its text names a byte it is that one.
`ReadFailure.placedFrom` says that this holds of every error of a stanza, although each of them
counts its offset from another place: the position of the stanza, of a word, of a body line or of
the body.
-/

namespace AgeFile

/-- An error that a reader of an input reports from an offset on: the input is short of bytes, or
the error points at a byte there and names no other. -/
inductive Error.PlacedFrom (input : Bytes) (start : Nat) : Error → Prop
  /-- The input ends too early. -/
  | truncated {needed available : Nat} (hshort : available < needed) :
      PlacedFrom input start (.truncated needed available)
  /-- A place of the input is wrong. -/
  | malformed {offset : Nat} {defect : Defect} (hstart : start ≤ offset)
      (hend : offset < input.length)
      (hbyte : ∀ byte, defect.Names byte → input[offset]? = some byte) :
      PlacedFrom input start (.malformed offset defect)

variable {input : Bytes} {start offset : Nat} {defect : Defect} {e : Error}

/-- An error that is placed behind an offset is placed behind every earlier one. -/
theorem Error.PlacedFrom.mono {other : Nat} (h : e.PlacedFrom input start) (hle : other ≤ start) :
    e.PlacedFrom input other := by
  cases h with
  | truncated hshort => exact .truncated hshort
  | malformed hstart hend hbyte => exact .malformed (Nat.le_trans hle hstart) hend hbyte

/-- A defect that is about no byte is placed anywhere in the input. -/
theorem Error.PlacedFrom.of_none (hdefect : defect.found? = none)
    (hdescribed : ∀ text, defect ≠ .described text) (hstart : start ≤ offset)
    (hend : offset < input.length) : (Error.malformed offset defect).PlacedFrom input start := by
  refine .malformed hstart hend ?_
  intro byte hnames
  have hfound := Defect.found?_eq_of_names hnames hdescribed
  rw [hdefect] at hfound
  exact absurd hfound (by simp)

/-- A defect that is about a byte is placed where the byte stands. -/
theorem Error.PlacedFrom.of_some {found : UInt8} (hdefect : defect.found? = some found)
    (hstart : start ≤ offset) (hbyte : input[offset]? = some found) :
    (Error.malformed offset defect).PlacedFrom input start := by
  refine .malformed hstart (List.getElem?_eq_some_iff.mp hbyte).1 ?_
  intro byte hnames
  have hdescribed : ∀ text, defect ≠ .described text := by
    rintro text rfl
    exact absurd hdefect (by simp [Defect.found?])
  rw [hbyte, ← hdefect, Defect.found?_eq_of_names hnames hdescribed]

namespace Stanza

variable {cursor next : Cursor} {line word rest : Bytes}

/-- The bytes behind an offset are those of the input, counted from it. -/
theorem getElem?_of_drop {i : Nat} (hdrop : input.drop offset = rest) :
    input[offset + i]? = rest[i]? := by
  rw [← hdrop, List.getElem?_drop]

/-- A word that is no token is refused at a byte of it, or where it would begin. -/
theorem TokenFailure.placedFrom (h : TokenFailure offset word e)
    (hdrop : input.drop offset = word ++ rest) (hrest : rest ≠ []) :
    e.PlacedFrom input offset := by
  cases h with
  | empty =>
      refine .of_none rfl (by simp) (Nat.le_refl _) ?_
      have hlength := congrArg List.length hdrop
      have hpos := List.length_pos_iff.mpr hrest
      rw [List.length_drop, List.nil_append] at hlength
      omega
  | @byte before after found _ _ =>
      refine .of_some rfl (Nat.le_add_right _ _) ?_
      rw [getElem?_of_drop hdrop, List.append_assoc, List.getElem?_append_right (Nat.le_refl _),
        Nat.sub_self, List.cons_append, List.getElem?_cons_zero]

/-- A line that is not the marker and words is refused at a byte of it, or at its end. -/
theorem WordsFailure.placedFrom (h : WordsFailure offset line e)
    (hdrop : input.drop offset = line ++ rest) (hrest : rest ≠ []) :
    e.PlacedFrom input offset := by
  have hlength := congrArg List.length hdrop
  have hpos := List.length_pos_iff.mpr hrest
  rw [List.length_drop, List.length_append] at hlength
  cases h with
  | marker _ => exact .of_none rfl (by simp) (Nat.le_refl _) (by omega)
  | missing _ => exact .of_none rfl (by simp) (Nat.le_refl _) (by omega)
  | @token before word after e hline hword =>
      have hwords := intercalate_between Stanza.marker before word after
      rw [← hline, List.intercalate_splitOn] at hwords
      -- The offset counts the marker, the words before this one, and the space before it.
      have hparts : line ++ rest = (Stanza.marker ++ spaced before ++ [space]) ++
          (word ++ ((after.flatMap fun word => space :: word) ++ rest)) := by
        rw [hwords]
        simp
      have hplace : offset + Stanza.marker.length + 1 + (spaced before).length =
          offset + (Stanza.marker ++ spaced before ++ [space]).length := by
        rw [List.length_append, List.length_append, List.length_singleton]
        omega
      have hword' : input.drop (offset + Stanza.marker.length + 1 + (spaced before).length) =
          word ++ ((after.flatMap fun word => space :: word) ++ rest) := by
        rw [hplace, ← List.drop_drop, hdrop, hparts, List.drop_left]
      have hbehind := List.append_ne_nil_of_right_ne_nil
        (after.flatMap fun word => space :: word) hrest
      exact (hword.placedFrom hword' hbehind).mono (by omega)

/-- A body line that cannot be read is refused where it begins. -/
theorem LinesFailure.placedFrom (h : LinesFailure cursor e) (hin : cursor.IsIn input) :
    e.PlacedFrom input cursor.offset := by
  induction h with
  | cut _ => exact .truncated (Nat.lt_succ_self _)
  | long hline _ =>
      have hlength := hin.offset_add
      have hread := Cursor.length_rest_of_readLine hline
      exact .of_none rfl (by simp) (Nat.le_refl _) (by omega)
  | later hline _ _ ih =>
      exact (ih (hin.readLine hline)).mono (Cursor.readLine_eq_ok_iff_spans.mp hline).2.offset_le

/-- A stanza that cannot be read is refused at one of its bytes, or the input is too short. -/
theorem ReadFailure.placedFrom (h : ReadFailure cursor e) (hin : cursor.IsIn input) :
    e.PlacedFrom input cursor.offset := by
  cases h with
  | cut _ _ => exact .truncated (Nat.lt_succ_self _)
  | words _ hline hwords =>
      obtain ⟨-, hrest, -⟩ := Cursor.readLine_eq_ok_iff.mp hline
      rw [hin.rest_eq] at hrest
      exact hwords.placedFrom hrest (List.cons_ne_nil _ _)
  | lines _ hline _ hlines =>
      exact (hlines.placedFrom (hin.readLine hline)).mono
        (Cursor.readLine_eq_ok_iff_spans.mp hline).2.offset_le
  | body _ hline _ hlines _ =>
      -- At least the line feed of the last line follows where the body begins.
      have hbody := (hin.readLine hline).offset_add
      have hread := length_rest_of_readLines hlines
      exact .of_none rfl (by simp) (Cursor.readLine_eq_ok_iff_spans.mp hline).2.offset_le
        (by omega)

end Stanza

end AgeFile
