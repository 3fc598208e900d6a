import AgeFile.Proofs.Cursor.Position
import AgeFile.Proofs.Except

/-!
# Reading with checked accesses

A position holds the bytes that are left to read, so the readers cannot reach beyond the input. A
reader that keeps the whole input and an offset can: an offset or an index may be out of range, and
a loop may go on without an end. `Checked` is what such a reader comes to, with nothing where an
access is out of range or a loop has used up its rounds. Read `Agrees` first: it says that a checked
computation comes to the answer of a reader, so that it never comes to nothing. Agreement composes
(`Agrees.bind`), and the first case of it is reading a line (`agrees_readLine`).
-/

namespace AgeFile

/-- What a computation with checked accesses comes to: nothing where it fails a check, and otherwise
an answer or an error. -/
abbrev Checked (α : Type) :=
  ExceptT Error Option α

namespace Checked

variable {α β γ δ : Type}

/-- The outcome of an access, nothing if it is out of range. -/
def access (found : Option α) : Checked α :=
  ExceptT.mk (found.map .ok)

/-- The bytes from `start` on; there are none beyond the end. -/
def suffix? (bytes : Bytes) (start : Nat) : Option Bytes :=
  if start ≤ bytes.length then some (bytes.drop start) else none

/-- The bytes from `start` up to `stop`, which lies behind `start` and not beyond the end. -/
def slice? (bytes : Bytes) (start stop : Nat) : Option Bytes :=
  if start ≤ stop ∧ stop ≤ bytes.length then some ((bytes.take stop).drop start) else none

/-- Read up to the line feed that follows `cursor`: the line, and the offset after the line feed. -/
def readLine (input : Bytes) (cursor : Nat) : Checked (Bytes × Nat) := do
  let rest ← access (suffix? input cursor)
  match rest.findIdx? (· == lineFeed) with
  | some stop =>
      let line ← access (slice? rest 0 stop)
      return (line, cursor + stop + 1)
  | none => throw (.truncated (rest.length + 1) rest.length)

/-- A checked computation comes to the result of a reader, seen as `view` says. -/
def Agrees (checked : Checked β) (result : Except Error α) (view : α → β) : Prop :=
  checked = ExceptT.mk (some (result.map view))

/-! ## Composing -/

/-- An access in range is gone on with. -/
theorem access_bind {found : Option α} {a : α} (h : found = some a) (f : α → Checked β) :
    (access found >>= f) = f a := by
  rw [h]
  rfl

/-- An answer agrees with an answer. -/
theorem Agrees.pure (view : α → β) (a : α) : Agrees (pure (view a)) (.ok a) view :=
  rfl

/-- An error agrees with the same error. -/
theorem Agrees.throw (view : α → β) (e : Error) : Agrees (throw e) (.error e) view :=
  rfl

/-- Computations that agree are gone on with in agreement. -/
theorem Agrees.bind {checked : Checked β} {result : Except Error α} {view : α → β}
    {f : β → Checked δ} {g : α → Except Error γ} {after : γ → δ}
    (h : Agrees checked result view)
    (hnext : ∀ a, result = .ok a → Agrees (f (view a)) (g a) after) :
    Agrees (checked >>= f) (result >>= g) after := by
  rw [Agrees] at h
  rw [h]
  cases result with
  | error e => rfl
  | ok a => exact hnext a rfl

/-- A computation that agrees with a reader answers with what the reader answers. -/
theorem Agrees.eq_ok_iff {checked : Checked β} {result : Except Error α} {view : α → β} {b : β}
    (h : Agrees checked result view) :
    checked = ExceptT.mk (some (.ok b)) ↔ ∃ a, result = .ok a ∧ view a = b := by
  rw [Agrees] at h
  rw [h, ← map_eq_ok_iff]
  exact Option.some_inj

/-! ## Reading a line -/

variable {cursor next : Cursor} {input : Bytes}

/-- The bytes from the offset of a position on are what is left to read there. -/
theorem suffix?_offset (hin : cursor.IsIn input) :
    suffix? input cursor.offset = some cursor.rest := by
  rw [suffix?, if_pos hin.offset_le, hin.rest_eq]

/-- A part of a text is taken from between the places where it begins and ends. -/
theorem slice?_append (before part after : Bytes) :
    slice? (before ++ part ++ after) before.length (before.length + part.length) = some part := by
  have hle : before.length + part.length ≤ (before ++ part ++ after).length := by
    rw [List.length_append, List.length_append]
    exact Nat.le_add_right _ _
  rw [slice?, if_pos ⟨Nat.le_add_right _ _, hle⟩, ← List.length_append, List.take_left,
    List.drop_left]

/-- There is a part between two offsets exactly when they are in order and in the input. -/
theorem slice?_eq_some_iff {bytes part : Bytes} {start stop : Nat} :
    slice? bytes start stop = some part ↔
      start ≤ stop ∧ stop ≤ bytes.length ∧ (bytes.take stop).drop start = part := by
  rw [slice?]
  split
  · rename_i hrange
    rw [Option.some_inj, ← and_assoc, and_iff_right hrange]
  · rename_i hrange
    simp only [reduceCtorEq, false_iff]
    exact fun h => hrange ⟨h.1, h.2.1⟩

/-- A part ends as many bytes behind its beginning as it has. -/
theorem stop_of_slice? {bytes part : Bytes} {start stop : Nat}
    (h : slice? bytes start stop = some part) : stop = start + part.length := by
  obtain ⟨hstart, hstop, rfl⟩ := slice?_eq_some_iff.mp h
  rw [List.length_drop, List.length_take]
  omega

/-- Where a part of an input begins, there is a position. -/
theorem isIn_of_slice? {part : Bytes} {start stop : Nat} (h : slice? input start stop = some part) :
    Cursor.IsIn ⟨start, input.drop start⟩ input := by
  obtain ⟨hstart, hstop, -⟩ := slice?_eq_some_iff.mp h
  exact ⟨Nat.le_trans hstart hstop, rfl⟩

/-- The part of an input from a position up to an offset is what stands between the two. -/
theorem slice?_offset_eq_some_iff (hin : cursor.IsIn input) {part : Bytes} {stop : Nat} :
    slice? input cursor.offset stop = some part ↔
      ∃ next : Cursor, cursor.Spans part next ∧ next.offset = stop := by
  rw [slice?_eq_some_iff]
  refine ⟨?_, ?_⟩
  · intro h
    obtain ⟨hstart, hstop, rfl⟩ := h
    refine ⟨⟨stop, input.drop stop⟩, ⟨?_, ?_⟩, rfl⟩
    · rw [hin.rest_eq, ← List.drop_append_of_le_length (by rw [List.length_take]; omega),
        List.take_append_drop]
    · show stop = cursor.offset + ((input.take stop).drop cursor.offset).length
      rw [List.length_drop, List.length_take]
      omega
  · intro h
    obtain ⟨next, hspans, rfl⟩ := h
    refine ⟨hspans.offset_le, (hspans.isIn hin).offset_le, ?_⟩
    rw [List.drop_take, ← hin.rest_eq, hspans.1, hspans.2, Nat.add_sub_cancel_left,
      List.take_left]

/-- What was read, and the offset of the position after it. -/
def atOffset (found : α × Cursor) : α × Nat :=
  (found.1, found.2.offset)

/-- There is no line feed to find in bytes without one. -/
theorem findIdx?_lineFeed {bytes : Bytes} (h : lineFeed ∉ bytes) :
    bytes.findIdx? (· == lineFeed) = none := by
  rw [List.findIdx?_eq_none_iff]
  intro byte hbyte
  rw [beq_eq_false_iff_ne]
  rintro rfl
  exact h hbyte

/-- Reading a line by offsets comes to the line at the position. -/
theorem agrees_readLine (hin : cursor.IsIn input) :
    Agrees (readLine input cursor.offset) cursor.readLine atOffset := by
  unfold readLine
  rw [access_bind (suffix?_offset hin)]
  cases hline : cursor.readLine with
  | error e =>
      obtain ⟨hcut, rfl⟩ := Cursor.readLine_eq_error_iff.mp hline
      simp only [findIdx?_lineFeed hcut]
      exact Agrees.throw _ _
  | ok found =>
      obtain ⟨line, next⟩ := found
      obtain ⟨hfeed, hrest, hoffset⟩ := Cursor.readLine_eq_ok_iff.mp hline
      have hsome : cursor.rest.findIdx? (· == lineFeed) = some line.length := by
        rw [hrest, List.findIdx?_append, findIdx?_lineFeed hfeed, List.findIdx?_cons]
        simp
      have hslice : slice? cursor.rest 0 line.length = some line := by
        have hpart := slice?_append [] line (lineFeed :: next.rest)
        rwa [List.nil_append, ← hrest, List.length_nil, Nat.zero_add] at hpart
      simp only [hsome]
      rw [access_bind hslice, ← hoffset]
      exact Agrees.pure atOffset (line, next)

/-! ## From any offset -/

/-- No bytes follow an offset beyond the end. -/
theorem suffix?_of_lt {offset : Nat} (h : input.length < offset) : suffix? input offset = none := by
  rw [suffix?, if_neg (Nat.not_le_of_lt h)]

/-- A checked computation that agrees with a reader at every position, and fails its first access
beyond the end, comes from any offset to what is read there. -/
theorem eq_map_at? {checked : Nat → Checked β} {reader : Cursor → Except Error α} {view : α → β}
    (hin : ∀ cursor : Cursor, cursor.IsIn input →
      Agrees (checked cursor.offset) (reader cursor) view)
    (hout : ∀ offset, input.length < offset → checked offset = ExceptT.mk none) (offset : Nat) :
    checked offset =
      ExceptT.mk ((Cursor.at? input offset).map fun cursor => (reader cursor).map view) := by
  cases hat : Cursor.at? input offset with
  | none => exact hout offset (Cursor.at?_eq_none_iff.mp hat)
  | some cursor =>
      obtain ⟨hcursor, rfl⟩ := Cursor.at?_eq_some_iff.mp hat
      exact hin cursor hcursor

/-- An answer from an offset is what is read at a position of the input. -/
theorem exists_cursor {reader : Cursor → Except Error α} {view : α → β} {offset : Nat} {b : β}
    (h : (Cursor.at? input offset).map (fun cursor => (reader cursor).map view) = some (.ok b)) :
    ∃ (cursor : Cursor) (a : α), cursor.IsIn input ∧ cursor.offset = offset ∧
      reader cursor = .ok a ∧ view a = b := by
  obtain ⟨cursor, hat, hread⟩ := Option.map_eq_some_iff.mp h
  obtain ⟨hin, hoffset⟩ := Cursor.at?_eq_some_iff.mp hat
  obtain ⟨a, ha, hview⟩ := map_eq_ok_iff.mp hread
  exact ⟨cursor, a, hin, hoffset, ha, hview⟩

/-- A line that is read ends behind its characters and its line feed, in the input. -/
theorem readLine_advances {offset stop : Nat} {line : Bytes}
    (h : readLine input offset = some (.ok (line, stop))) :
    stop = offset + line.length + 1 ∧ stop ≤ input.length := by
  have hout : ∀ offset, input.length < offset → readLine input offset = ExceptT.mk none := by
    intro offset hlt
    rw [readLine, suffix?_of_lt hlt]
    rfl
  rw [eq_map_at? (fun _ => agrees_readLine) hout] at h
  obtain ⟨cursor, ⟨read, next⟩, hin, rfl, hline, hview⟩ := exists_cursor h
  obtain ⟨rfl, rfl⟩ := Prod.mk.inj hview
  exact ⟨(Cursor.readLine_eq_ok_iff.mp hline).2.2, (hin.readLine hline).offset_le⟩

end Checked

end AgeFile
