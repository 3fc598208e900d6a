import AgeFile.Cursor

/-!
# What stands between two positions

Every reader moves from one position of the input to a later one, and what it accepts is a statement
about the bytes in between. `cursor.Spans bytes next` says that `bytes` stand at `cursor` and that
`next` is the position after them. The exact statements about readers are all of this form, so they
compose by `spans_append_iff`; `start_spans_iff` turns the last of them into a statement about a
prefix of the input.
-/

namespace AgeFile.Cursor

/-- `cursor.Spans bytes next` says that `bytes` stand at `cursor` and `next` is the position after
them. -/
def Spans (cursor : Cursor) (bytes : Bytes) (next : Cursor) : Prop :=
  cursor.rest = bytes ++ next.rest ∧ next.offset = cursor.offset + bytes.length

variable {cursor next : Cursor} {bytes first second : Bytes}

/-- Two positions with the same offset and the same rest are equal. -/
theorem eq_of_rest {other : Cursor} (hrest : next.rest = other.rest)
    (hoffset : next.offset = other.offset) : next = other := by
  cases next
  cases other
  simp_all

/-- Nothing stands between a position and itself. -/
theorem spans_nil_iff : cursor.Spans [] next ↔ next = cursor := by
  refine ⟨?_, ?_⟩
  · intro h
    obtain ⟨hrest, hoffset⟩ := h
    exact eq_of_rest hrest.symm hoffset
  · intro h
    obtain rfl := h
    exact ⟨rfl, rfl⟩

/-- The bytes at a position determine the position after them. -/
theorem Spans.unique {other : Cursor} (h : cursor.Spans bytes next)
    (hother : cursor.Spans bytes other) : next = other := by
  refine eq_of_rest ?_ (h.2.trans hother.2.symm)
  exact List.append_cancel_left (h.1.symm.trans hother.1)

/-- Bytes that follow each other are passed one after the other. -/
theorem spans_append_iff :
    cursor.Spans (first ++ second) next ↔
      ∃ middle, cursor.Spans first middle ∧ middle.Spans second next := by
  refine ⟨?_, ?_⟩
  · intro h
    obtain ⟨hrest, hoffset⟩ := h
    refine ⟨⟨cursor.offset + first.length, second ++ next.rest⟩, ⟨?_, rfl⟩, rfl, ?_⟩
    · rw [hrest, List.append_assoc]
    · rw [hoffset, List.length_append, Nat.add_assoc]
  · intro h
    obtain ⟨middle, ⟨hrest, hoffset⟩, hrest', hoffset'⟩ := h
    refine ⟨?_, ?_⟩
    · rw [hrest, hrest', List.append_assoc]
    · rw [hoffset', hoffset, List.length_append, Nat.add_assoc]

/-- Passing one piece after the other passes both. -/
theorem Spans.append {middle : Cursor} (h : cursor.Spans first middle)
    (hnext : middle.Spans second next) : cursor.Spans (first ++ second) next :=
  spans_append_iff.mpr ⟨middle, h, hnext⟩

/-- Passing bytes leads on by their number. -/
theorem Spans.offset_le (h : cursor.Spans bytes next) : cursor.offset ≤ next.offset := by
  rw [h.2]
  omega

/-- A word stands at a position exactly when skipping its length passes it. -/
theorem startsWith_iff_spans {word : Bytes} :
    cursor.startsWith word = true ↔ cursor.Spans word (cursor.skip word.length) := by
  rw [startsWith, List.isPrefixOf_iff_prefix]
  refine ⟨?_, ?_⟩
  · intro h
    obtain ⟨rest, hrest⟩ := h
    refine ⟨?_, rfl⟩
    rw [skip, ← hrest, List.drop_left]
  · intro h
    obtain ⟨hrest, -⟩ := h
    exact ⟨_, hrest.symm⟩

/-- What stands at a position is what it starts with. -/
theorem Spans.startsWith (h : cursor.Spans bytes next) : cursor.startsWith bytes = true := by
  rw [Cursor.startsWith, List.isPrefixOf_iff_prefix]
  exact ⟨_, h.1.symm⟩

/-- Skipping what stands at a position leads to the position after it. -/
theorem Spans.skip_eq (h : cursor.Spans bytes next) : cursor.skip bytes.length = next :=
  (startsWith_iff_spans.mp h.startsWith).unique h

/-- Two words with different second bytes do not stand at one position. -/
theorem not_startsWith_of_spans {word : Bytes} (h : cursor.Spans (first ++ second) next)
    (hword : ¬ word <+: first) (hlength : word.length ≤ first.length) :
    cursor.startsWith word = false := by
  rw [Bool.eq_false_iff, Ne, Cursor.startsWith, List.isPrefixOf_iff_prefix, h.1,
    List.append_assoc]
  intro hprefix
  exact hword (List.prefix_of_prefix_length_le hprefix (List.prefix_append _ _) hlength)

/-- A line is read exactly when the line and a line feed stand at the position. -/
theorem readLine_eq_ok_iff_spans {line : Bytes} :
    cursor.readLine = .ok (line, next) ↔
      lineFeed ∉ line ∧ cursor.Spans (line ++ [lineFeed]) next := by
  rw [readLine_eq_ok_iff, Spans, List.append_assoc, List.singleton_append, List.length_append,
    List.length_singleton, Nat.add_assoc]

/-- From the beginning of an input, the bytes up to an offset are the input's first bytes. -/
theorem start_spans_iff {input : Bytes} {offset : Nat} :
    (∃ next, (start input).Spans bytes next ∧ next.offset = offset) ↔
      offset ≤ input.length ∧ input.take offset = bytes := by
  refine ⟨?_, ?_⟩
  · intro h
    obtain ⟨next, ⟨hrest, hoffset⟩, rfl⟩ := h
    obtain rfl : input = bytes ++ next.rest := hrest
    rw [hoffset, show (start (bytes ++ next.rest)).offset = 0 from rfl, Nat.zero_add,
      List.take_left, List.length_append]
    exact ⟨by omega, rfl⟩
  · intro h
    obtain ⟨hle, rfl⟩ := h
    refine ⟨⟨offset, input.drop offset⟩, ⟨(List.take_append_drop _ _).symm, ?_⟩, rfl⟩
    rw [List.length_take, Nat.min_eq_left hle]
    exact (Nat.zero_add _).symm

end AgeFile.Cursor
