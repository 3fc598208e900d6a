import AgeFile.Proofs.Cursor.Span

/-!
# Positions behind more bytes

The same bytes may stand at the front of an input or behind others. `cursor.shift count` is a
position with `count` more bytes before it, and `shifted` says how an outcome is told there: the
place of an error and the position after what was read move by as much, and nothing else changes.
What stands between two positions is the same on both sides (`Spans.shift`).
-/

namespace AgeFile

/-- An error as it is told with `count` more bytes in front: the place it points at moves. -/
def Error.shift (count : Nat) : Error → Error
  | .malformed offset defect => .malformed (offset + count) defect
  | e => e

/-- An outcome as it is told with `count` more bytes in front; `view` moves what was read. -/
def shifted {α : Type} (count : Nat) (view : α → α) : Except Error α → Except Error α
  | .ok a => .ok (view a)
  | .error e => .error (e.shift count)

namespace Cursor

/-- The same position with `count` more bytes before it. -/
def shift (count : Nat) (cursor : Cursor) : Cursor :=
  ⟨cursor.offset + count, cursor.rest⟩

variable {cursor next : Cursor} {bytes line : Bytes} {count : Nat}

/-- More bytes before a position leave what follows it. -/
@[simp] theorem rest_shift : (cursor.shift count).rest = cursor.rest :=
  rfl

/-- More bytes before a position move it. -/
@[simp] theorem offset_shift : (cursor.shift count).offset = cursor.offset + count :=
  rfl

/-- What stands between two positions stands there behind more bytes. -/
theorem Spans.shift (h : cursor.Spans bytes next) (count : Nat) :
    (cursor.shift count).Spans bytes (next.shift count) := by
  refine ⟨?_, ?_⟩
  · rw [rest_shift, rest_shift, h.1]
  · rw [offset_shift, offset_shift, h.2, Nat.add_right_comm]

/-- A line that is read is read behind more bytes. -/
theorem readLine_shift (h : cursor.readLine = .ok (line, next)) (count : Nat) :
    (cursor.shift count).readLine = .ok (line, next.shift count) := by
  obtain ⟨hfeed, hspans⟩ := readLine_eq_ok_iff_spans.mp h
  exact readLine_eq_ok_iff_spans.mpr ⟨hfeed, hspans.shift count⟩

/-- The position after some bytes of an input is the front of what follows them, with as many bytes
before it. -/
theorem at?_eq_shift {input : Bytes} {offset : Nat} (h : offset ≤ input.length) :
    at? input offset = some ((start (input.drop offset)).shift offset) := by
  rw [at?, if_pos h, shift, start, Nat.zero_add]

/-- A reader that tells the same behind more bytes tells the same from an offset of an input and
from the front of what follows the offset. -/
theorem at?_drop {α β : Type} {reader : Cursor → Except Error α} {view : Nat → α → α}
    (answer : α → β) (viewAnswer : Nat → β → β)
    (hreader : ∀ cursor count, reader (cursor.shift count) =
      shifted count (view count) (reader cursor))
    (hview : ∀ count a, answer (view count a) = viewAnswer count (answer a)) {input : Bytes}
    {offset : Nat} (h : offset ≤ input.length) :
    ∃ near, (at? (input.drop offset) 0).map (fun cursor => (reader cursor).map answer) =
        some near ∧
      (at? input offset).map (fun cursor => (reader cursor).map answer) =
        some (shifted offset (viewAnswer offset) near) := by
  refine ⟨(reader (start (input.drop offset))).map answer, ?_, ?_⟩
  · rw [at?, if_pos (Nat.zero_le _), List.drop_zero]
    rfl
  · rw [at?_eq_shift h, Option.map_some, hreader]
    cases reader (start (input.drop offset)) with
    | error e => rfl
    | ok a => exact congrArg (fun b => some (Except.ok b)) (hview offset a)

end Cursor

end AgeFile
