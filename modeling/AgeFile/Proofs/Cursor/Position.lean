import AgeFile.Proofs.Cursor.Span

/-!
# Positions in an input

`cursor.IsIn input` says that a position is one of this input: its offset is the number of bytes
before it, and the rest is what the input has from there on. The first position is one, and passing
bytes leads from one to another, so every position that a reader comes to is one
(`Spans.isIn`). `getElem?_rest` reads the byte of the input at a place behind the position.
-/

namespace AgeFile.Cursor

/-- A position lies in an input. -/
structure IsIn (cursor : Cursor) (input : Bytes) : Prop where
  offset_le : cursor.offset ≤ input.length
  rest_eq : cursor.rest = input.drop cursor.offset

variable {cursor next : Cursor} {input bytes : Bytes}

/-- The first position lies in the input. -/
theorem start_isIn (input : Bytes) : (start input).IsIn input :=
  ⟨Nat.zero_le _, rfl⟩

/-- What lies before a position and what is left to read make up the input. -/
theorem IsIn.offset_add (h : cursor.IsIn input) :
    cursor.offset + cursor.rest.length = input.length := by
  have hle := h.offset_le
  rw [h.rest_eq, List.length_drop]
  omega

/-- Passing bytes leads to a position in the same input. -/
theorem Spans.isIn (h : cursor.Spans bytes next) (hin : cursor.IsIn input) : next.IsIn input := by
  obtain ⟨hrest, hoffset⟩ := h
  have hlength := hin.offset_add
  rw [hrest, List.length_append] at hlength
  refine ⟨by omega, ?_⟩
  rw [hoffset, ← List.drop_drop, ← hin.rest_eq, hrest, List.drop_left]

/-- Reading a line leads to a position in the same input. -/
theorem IsIn.readLine {line : Bytes} (hin : cursor.IsIn input)
    (h : cursor.readLine = .ok (line, next)) : next.IsIn input :=
  (readLine_eq_ok_iff_spans.mp h).2.isIn hin

/-- The bytes left to read are those of the input, counted from the position. -/
theorem IsIn.getElem?_rest (hin : cursor.IsIn input) (i : Nat) :
    cursor.rest[i]? = input[cursor.offset + i]? := by
  rw [hin.rest_eq, List.getElem?_drop]

/-- There is a position after a number of bytes exactly when the input has that many. -/
theorem at?_eq_some_iff {offset : Nat} :
    at? input offset = some cursor ↔ cursor.IsIn input ∧ cursor.offset = offset := by
  unfold at?
  split
  · rename_i hle
    refine ⟨?_, ?_⟩
    · intro h
      obtain rfl := Option.some.inj h
      exact ⟨⟨hle, rfl⟩, rfl⟩
    · intro h
      obtain ⟨hin, rfl⟩ := h
      exact congrArg some (eq_of_rest hin.rest_eq.symm rfl)
  · rename_i hlt
    refine ⟨fun h => absurd h (by simp), ?_⟩
    intro h
    obtain ⟨hin, rfl⟩ := h
    exact absurd hin.offset_le hlt

/-- There is no position exactly beyond the end of the input. -/
theorem at?_eq_none_iff {offset : Nat} : at? input offset = none ↔ input.length < offset := by
  unfold at?
  split
  · simp only [reduceCtorEq, false_iff]
    omega
  · simp only [true_iff]
    omega

end AgeFile.Cursor
