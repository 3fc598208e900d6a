import AgeFile.Error

/-!
# Reading positions

A cursor is a position in an input: how many bytes lie before it, and the bytes from there on. The
main statement, `readLine_eq_ok_iff`, says which line is read and where reading goes on.
-/

namespace AgeFile

/-- A position in an input. -/
structure Cursor where
  offset : Nat
  rest : Bytes
  deriving DecidableEq

namespace Cursor

/-- The position before the first byte. -/
def start (input : Bytes) : Cursor :=
  ⟨0, input⟩

/-- The position after `offset` bytes; there is none beyond the end of the input. -/
def at? (input : Bytes) (offset : Nat) : Option Cursor :=
  if offset ≤ input.length then some ⟨offset, input.drop offset⟩ else none

/-- The position `count` bytes further on. -/
def skip (count : Nat) (cursor : Cursor) : Cursor :=
  ⟨cursor.offset + count, cursor.rest.drop count⟩

/-- Whether the bytes from here on begin with a word. -/
def startsWith (cursor : Cursor) (word : Bytes) : Bool :=
  word.isPrefixOf cursor.rest

/-- Read up to the next line feed: the line without it, and the position after it. -/
def readLine (cursor : Cursor) : Except Error (Bytes × Cursor) :=
  let line := cursor.rest.takeWhile (· != lineFeed)
  match cursor.rest.dropWhile (· != lineFeed) with
  | [] => .error (.truncated (line.length + 1) line.length)
  | _ :: rest => .ok (line, ⟨cursor.offset + line.length + 1, rest⟩)

/-- What stands before the first line feed and what begins with it are two parts of the whole. -/
theorem takeWhile_dropWhile_eq_iff {bytes line rest : Bytes} {byte : UInt8} :
    bytes.takeWhile (· != lineFeed) = line ∧ bytes.dropWhile (· != lineFeed) = byte :: rest ↔
      lineFeed ∉ line ∧ byte = lineFeed ∧ bytes = line ++ lineFeed :: rest := by
  induction bytes generalizing line with
  | nil => simp
  | cons b bytes ih =>
      by_cases hb : b = lineFeed
      · subst hb
        cases line with
        | nil => simp [eq_comm]
        | cons c line => simp +contextual [eq_comm]
      · cases line with
        | nil => simp [hb]
        | cons c line =>
            have hne : (b != lineFeed) = true := by simpa using hb
            simp only [List.takeWhile_cons_of_pos (p := (· != lineFeed)) hne,
              List.dropWhile_cons_of_pos (p := (· != lineFeed)) hne, List.cons.injEq,
              List.cons_append, List.mem_cons, not_or, and_assoc, ih]
            constructor
            · rintro ⟨rfl, hmem, hbyte, hrest⟩
              exact ⟨fun h => hb h.symm, hmem, hbyte, rfl, hrest⟩
            · rintro ⟨-, hmem, hbyte, rfl, hrest⟩
              exact ⟨rfl, hmem, hbyte, hrest⟩

/-- A line is read exactly when it has no line feed and one follows it. -/
theorem readLine_eq_ok_iff {cursor next : Cursor} {line : Bytes} :
    cursor.readLine = .ok (line, next) ↔
      lineFeed ∉ line ∧ cursor.rest = line ++ lineFeed :: next.rest ∧
        next.offset = cursor.offset + line.length + 1 := by
  unfold readLine
  cases hdrop : cursor.rest.dropWhile (· != lineFeed) with
  | nil =>
      simp only [reduceCtorEq, false_iff]
      rintro ⟨hmem, hrest, -⟩
      have := (takeWhile_dropWhile_eq_iff.mpr ⟨hmem, rfl, hrest⟩).2
      rw [hdrop] at this
      exact absurd this (by simp)
  | cons byte rest =>
      obtain ⟨offset, after⟩ := next
      simp only [Except.ok.injEq, Prod.mk.injEq, mk.injEq]
      constructor
      · rintro ⟨hline, hoffset, rfl⟩
        have h := takeWhile_dropWhile_eq_iff.mp ⟨hline, hdrop⟩
        exact ⟨h.1, h.2.2, by rw [← hoffset, hline]⟩
      · rintro ⟨hmem, hrest, hoffset⟩
        have h := takeWhile_dropWhile_eq_iff.mpr ⟨hmem, rfl, hrest⟩
        rw [hdrop, List.cons.injEq] at h
        exact ⟨h.1, by rw [h.1, hoffset], h.2.2⟩

/-- A line cannot be read exactly when no line feed follows; then the rest of the input is short
of one byte. -/
theorem readLine_eq_error_iff {cursor : Cursor} {e : Error} :
    cursor.readLine = .error e ↔
      lineFeed ∉ cursor.rest ∧
        e = .truncated (cursor.rest.length + 1) cursor.rest.length := by
  have hcut := List.takeWhile_append_dropWhile (p := (· != lineFeed)) (l := cursor.rest)
  unfold readLine
  cases hdrop : cursor.rest.dropWhile (· != lineFeed) with
  | nil =>
      rw [hdrop, List.append_nil] at hcut
      have hmem : lineFeed ∉ cursor.rest := fun h => by
        have hall := List.all_takeWhile (p := (· != lineFeed)) (l := cursor.rest)
        rw [hcut] at hall
        simpa using List.all_eq_true.mp hall _ h
      simp only [hcut, Except.error.injEq]
      exact ⟨fun h => ⟨hmem, h.symm⟩, fun h => h.2.symm⟩
  | cons byte rest =>
      simp only [reduceCtorEq, false_iff]
      rintro ⟨hmem, -⟩
      have h := takeWhile_dropWhile_eq_iff.mp ⟨rfl, hdrop⟩
      exact hmem (by rw [h.2.2]; simp)

/-- Reading a line leaves less to read. -/
theorem length_rest_of_readLine {cursor next : Cursor} {line : Bytes}
    (h : cursor.readLine = .ok (line, next)) :
    cursor.rest.length = line.length + 1 + next.rest.length := by
  rw [(readLine_eq_ok_iff.mp h).2.1]
  simp
  omega

end Cursor

end AgeFile
