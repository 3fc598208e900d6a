import AgeFile.Proofs.Cursor.Span

/-!
# Positions in a longer input

An input may arrive in parts. `cursor.extend tail` is the same position in the input that goes on
with `tail`: what stood there still stands there, and a word that does not stand there cannot come
to stand there unless the input ended within it.
-/

namespace AgeFile.Cursor

/-- The same position in the input that goes on with more bytes. -/
def extend (tail : Bytes) (cursor : Cursor) : Cursor :=
  ⟨cursor.offset, cursor.rest ++ tail⟩

variable {cursor next : Cursor} {bytes word line tail : Bytes}

/-- More bytes do not move a position. -/
@[simp] theorem offset_extend : (cursor.extend tail).offset = cursor.offset :=
  rfl

/-- More bytes follow what is left to read. -/
@[simp] theorem rest_extend : (cursor.extend tail).rest = cursor.rest ++ tail :=
  rfl

/-- A longer input is the shorter one with more bytes after it. -/
theorem start_append (input tail : Bytes) : start (input ++ tail) = (start input).extend tail :=
  rfl

/-- What stands between two positions stands there in a longer input. -/
theorem Spans.extend (h : cursor.Spans bytes next) (tail : Bytes) :
    (cursor.extend tail).Spans bytes (next.extend tail) := by
  refine ⟨?_, ?_⟩
  · rw [rest_extend, rest_extend, h.1, List.append_assoc]
  · rw [offset_extend, offset_extend, h.2]

/-- A line that is read is read from a longer input. -/
theorem readLine_extend (h : cursor.readLine = .ok (line, next)) (tail : Bytes) :
    (cursor.extend tail).readLine = .ok (line, next.extend tail) := by
  obtain ⟨hfeed, hspans⟩ := readLine_eq_ok_iff_spans.mp h
  exact readLine_eq_ok_iff_spans.mpr ⟨hfeed, hspans.extend tail⟩

/-- Where the input does not end within a word, more bytes do not decide whether it stands
there. -/
theorem startsWith_extend (h : ¬ cursor.rest <+: word) (tail : Bytes) :
    (cursor.extend tail).startsWith word = cursor.startsWith word := by
  rw [Bool.eq_iff_iff, startsWith, startsWith, List.isPrefixOf_iff_prefix,
    List.isPrefixOf_iff_prefix, rest_extend]
  refine ⟨?_, ?_⟩
  · intro hword
    -- Both the word and the shorter rest begin the longer rest, so one begins the other.
    rcases List.prefix_or_prefix_of_prefix hword (List.prefix_append cursor.rest tail) with
      hword | hrest
    · exact hword
    · exact absurd hrest h
  · intro hword
    exact hword.trans (List.prefix_append _ _)

end AgeFile.Cursor
