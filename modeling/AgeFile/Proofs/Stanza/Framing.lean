import AgeFile.Proofs.Stanza.Language

/-!
# Which line ends a body

A body has no length of its own: its lines are read up to the first that is not full. Read
`FirstNotFull` first. `parseAt?_framing` is the main statement: that line alone says whether the
body is too wide or complete, and only then is the text of the lines decoded; where there is no such
line, the input ends too early. Lines are those that a split at every line feed yields, and
`readLines_of_fullLines` says how full ones are passed over.
-/

namespace AgeFile.Stanza

/-- The lines of some bytes that a line feed ends. -/
def completeLines (bytes : Bytes) : List Bytes :=
  (bytes.splitOn lineFeed).dropLast

/-- What follows the last line feed of some bytes; all of them if they have none. -/
def unfinishedLine (bytes : Bytes) : Bytes :=
  (bytes.splitOn lineFeed).getLast (List.splitOn_ne_nil lineFeed bytes)

/-- Line number `m` is the first of some lines that does not have the length of a full one. -/
structure FirstNotFull (lines : List Bytes) (m : Nat) (line : Bytes) : Prop where
  getElem?_eq : lines[m]? = some line
  length_ne : line.length ≠ 64
  full_before : ∀ other ∈ lines.take m, other.length = 64

variable {cursor next : Cursor} {others : List Bytes} {line text : Bytes} {m : Nat}

/-! ## Lines of a split -/

/-- Bytes without a line feed have no complete line. -/
theorem lines_of_notMem {bytes : Bytes} (h : lineFeed ∉ bytes) :
    completeLines bytes = [] ∧ unfinishedLine bytes = bytes := by
  have hsplit : bytes.splitOn lineFeed = [bytes] := List.splitOn_eq_singleton h
  refine ⟨?_, ?_⟩
  · rw [completeLines, hsplit]
    rfl
  · simp only [unfinishedLine, hsplit]
    rfl

/-- A line that a line feed ends is the first complete one, and the others are those behind it. -/
theorem lines_append {rest : Bytes} (h : lineFeed ∉ line) :
    completeLines (line ++ lineFeed :: rest) = line :: completeLines rest ∧
      unfinishedLine (line ++ lineFeed :: rest) = unfinishedLine rest := by
  have hsplit : (line ++ lineFeed :: rest).splitOn lineFeed = line :: rest.splitOn lineFeed :=
    List.splitOn_append_cons_self_of_not_mem h rest
  have hne := List.splitOn_ne_nil lineFeed rest
  refine ⟨?_, ?_⟩
  · rw [completeLines, hsplit, List.dropLast_cons_of_ne_nil hne]
    rfl
  · simp only [unfinishedLine, hsplit]
    exact List.getLast_cons hne

/-- The line that is read is the first complete one, and the others are those behind it. -/
theorem lines_of_readLine (h : cursor.readLine = .ok (line, next)) :
    completeLines cursor.rest = line :: completeLines next.rest ∧
      unfinishedLine cursor.rest = unfinishedLine next.rest := by
  obtain ⟨hnone, hrest, -⟩ := Cursor.readLine_eq_ok_iff.mp h
  rw [hrest]
  exact lines_append hnone

/-- Where there is a complete line, it is read, and the others follow. -/
theorem exists_readLine_of_completeLines (h : completeLines cursor.rest = line :: others) :
    ∃ next, cursor.readLine = .ok (line, next) ∧ completeLines next.rest = others ∧
      unfinishedLine next.rest = unfinishedLine cursor.rest := by
  cases hread : cursor.readLine with
  | error e =>
      obtain ⟨hnone, -⟩ := Cursor.readLine_eq_error_iff.mp hread
      rw [(lines_of_notMem hnone).1] at h
      exact absurd h (by simp)
  | ok found =>
      obtain ⟨first, next⟩ := found
      obtain ⟨hlines, hlast⟩ := lines_of_readLine hread
      obtain ⟨rfl, hothers⟩ := List.cons.inj (hlines.symm.trans h)
      exact ⟨next, rfl, hothers, hlast.symm⟩

/-- Where there is no complete line, none is read, and the input is short of one byte. -/
theorem readLine_of_completeLines_nil (h : completeLines cursor.rest = []) :
    cursor.readLine = .error (.truncated ((unfinishedLine cursor.rest).length + 1)
      (unfinishedLine cursor.rest).length) := by
  cases hread : cursor.readLine with
  | error e =>
      obtain ⟨hnone, rfl⟩ := Cursor.readLine_eq_error_iff.mp hread
      rw [(lines_of_notMem hnone).2]
  | ok found =>
      rw [(lines_of_readLine hread).1] at h
      exact absurd h (by simp)

/-- All lines are full, or one is the first that is not. -/
theorem full_or_exists_firstNotFull (lines : List Bytes) :
    (∀ line ∈ lines, line.length = 64) ∨ ∃ m line, FirstNotFull lines m line := by
  induction lines with
  | nil => exact Or.inl (by simp)
  | cons line lines ih =>
      by_cases hfull : line.length = 64
      · rcases ih with hall | ⟨m, other, hother⟩
        · exact Or.inl (List.forall_mem_cons.mpr ⟨hfull, hall⟩)
        · refine Or.inr ⟨m + 1, other, hother.getElem?_eq, hother.length_ne, ?_⟩
          rw [List.take_succ_cons]
          exact List.forall_mem_cons.mpr ⟨hfull, hother.full_before⟩
      · exact Or.inr ⟨0, line, rfl, hfull, by simp⟩

/-! ## Lines of a body -/

/-- Full lines are passed over: reading goes on behind them, 65 bytes for each of them further. -/
theorem readLines_of_fullLines (done : List Bytes) (m : Nat)
    (hcount : m ≤ (completeLines cursor.rest).length)
    (hfull : ∀ line ∈ (completeLines cursor.rest).take m, line.length = 64) :
    ∃ next : Cursor, next.offset = cursor.offset + 65 * m ∧
      completeLines next.rest = (completeLines cursor.rest).drop m ∧
      unfinishedLine next.rest = unfinishedLine cursor.rest ∧
      readLines cursor done =
        readLines next (((completeLines cursor.rest).take m).reverse ++ done) := by
  induction m generalizing cursor done with
  | zero => exact ⟨cursor, rfl, rfl, rfl, rfl⟩
  | succ m ih =>
      cases hlines : completeLines cursor.rest with
      | nil =>
          rw [hlines] at hcount
          exact absurd hcount (by simp)
      | cons line lines =>
          obtain ⟨middle, hread, hmiddle, hlast⟩ := exists_readLine_of_completeLines hlines
          rw [hlines, List.take_succ_cons, List.forall_mem_cons] at hfull
          rw [hlines, List.length_cons] at hcount
          subst hmiddle
          obtain ⟨next, hoffset, hnext, hunfinished, hlater⟩ :=
            ih (line :: done) (Nat.le_of_succ_le_succ hcount) hfull.2
          have hstep := (Cursor.readLine_eq_ok_iff.mp hread).2.2
          refine ⟨next, by omega, hnext, hunfinished.trans hlast, ?_⟩
          rw [readLines_of_readLine hread, if_neg (by rw [hfull.1]; decide), if_pos hfull.1, hlater,
            List.take_succ_cons, List.reverse_cons, List.append_assoc, List.singleton_append]

/-- The first line that is not full is read behind the full ones. -/
theorem FirstNotFull.readLines_eq (h : FirstNotFull (completeLines cursor.rest) m line)
    (done : List Bytes) :
    ∃ before after : Cursor, before.offset = cursor.offset + 65 * m ∧
      before.readLine = .ok (line, after) ∧
      readLines cursor done =
        readLines before (((completeLines cursor.rest).take m).reverse ++ done) := by
  obtain ⟨hm, hline⟩ := List.getElem?_eq_some_iff.mp h.getElem?_eq
  obtain ⟨before, hoffset, hlines, -, hread⟩ :=
    readLines_of_fullLines done m (Nat.le_of_lt hm) h.full_before
  rw [List.drop_eq_getElem_cons hm, hline] at hlines
  obtain ⟨after, hafter, -, -⟩ := exists_readLine_of_completeLines hlines
  exact ⟨before, after, hoffset, hafter, hread⟩

/-- A line with more characters than a full one is refused where it begins. -/
theorem readBody_of_long (h : FirstNotFull (completeLines cursor.rest) m line)
    (hlong : 64 < line.length) :
    readBody cursor = .error (.malformed (cursor.offset + 65 * m) (.longBodyLine line.length)) := by
  obtain ⟨before, after, hoffset, hline, hread⟩ := h.readLines_eq []
  rw [readBody, hread, readLines_of_readLine hline, if_pos hlong, hoffset, error_bind]

/-- A line with fewer characters than a full one ends the body, whose text is decoded then. -/
theorem readLines_of_short (h : FirstNotFull (completeLines cursor.rest) m line)
    (hshort : line.length < 64) :
    ∃ after : Cursor, after.offset = cursor.offset + 65 * m + line.length + 1 ∧
      readLines cursor [] = .ok (((completeLines cursor.rest).take (m + 1)).flatten, after) := by
  obtain ⟨before, after, hoffset, hline, hread⟩ := h.readLines_eq []
  have hwidth : Format.bodyLineLength = 64 := rfl
  refine ⟨after, ?_, ?_⟩
  · rw [(Cursor.readLine_eq_ok_iff.mp hline).2.2, hoffset]
  · rw [hread, readLines_of_readLine hline, if_neg (by omega), if_neg (by omega),
      List.take_add_one, h.getElem?_eq, List.append_nil, List.reverse_cons, List.reverse_reverse]
    rfl

/-- The lines of a body that were read are decoded together. -/
theorem readBody_of_readLines (h : readLines cursor [] = .ok (text, next)) :
    readBody cursor =
      match Base64.decode text with
      | .error fault => .error (.malformed cursor.offset (.body fault))
      | .ok body => .ok (body, next) := by
  rw [readBody, h, ok_bind]
  rfl

/-- Where all complete lines are full, the input ends before the body does. -/
theorem readBody_of_full (h : ∀ line ∈ completeLines cursor.rest, line.length = 64) :
    readBody cursor = .error (.truncated ((unfinishedLine cursor.rest).length + 1)
      (unfinishedLine cursor.rest).length) := by
  obtain ⟨next, -, hlines, hunfinished, hread⟩ :=
    readLines_of_fullLines [] _ (Nat.le_refl _) (by rwa [List.take_length])
  rw [List.drop_length] at hlines
  rw [readBody, hread, readLines_of_readLine_error (readLine_of_completeLines_nil hlines),
    hunfinished, error_bind]

/-! ## Stanzas -/

/-- Behind a stanza line that is accepted, the first complete line that is not full decides. If it
is too long, it is refused where it begins, whatever the lines before it hold. If it is shorter, the
body is what the text of the lines up to it is the encoding of, and the stanza ends behind it; text
that is no encoding is refused where the body begins. If there is no such line, the input is short
of one byte behind what follows its last complete line. -/
theorem parseAt?_framing {input : Bytes} {offset stop : Nat} {tag : Token} {args : List Token}
    (hline : Checked.slice? input offset stop = some line) (hfeed : input[stop]? = some lineFeed)
    (hwords : readWords offset line = .ok (tag, args)) :
    let start := stop + 1
    let lines := completeLines (input.drop start)
    let rest := unfinishedLine (input.drop start)
    (∀ m last, FirstNotFull lines m last →
      (64 < last.length → parseAt? input offset =
        some (.error (.malformed (start + 65 * m) (.longBodyLine last.length)))) ∧
      (last.length < 64 →
        (∀ body, (lines.take (m + 1)).flatten = Base64.encode body → parseAt? input offset =
          some (.ok (some (⟨tag, args, body⟩, start + 65 * m + last.length + 1)))) ∧
        ((∀ body, (lines.take (m + 1)).flatten ≠ Base64.encode body) →
          ∃ fault, Base64.decode (lines.take (m + 1)).flatten = .error fault ∧
            parseAt? input offset = some (.error (.malformed start (.body fault)))))) ∧
    ((¬ ∃ m last, FirstNotFull lines m last) →
      parseAt? input offset = some (.error (.truncated (rest.length + 1) rest.length))) := by
  intro start lines rest
  have hstanza := parseAt?_of_words hline hfeed hwords
  refine ⟨?_, ?_⟩
  · intro m last hlast
    refine ⟨?_, ?_⟩
    · intro hlong
      have hread : readBody ⟨start, input.drop start⟩ = _ := readBody_of_long hlast hlong
      rw [hstanza, hread]
      rfl
    · intro hshort
      obtain ⟨after, hoffset, hread⟩ :
          ∃ after : Cursor, _ ∧ readLines ⟨start, input.drop start⟩ [] = _ :=
        readLines_of_short hlast hshort
      have hbody := readBody_of_readLines hread
      refine ⟨?_, ?_⟩
      · intro body htext
        rw [hstanza, hbody, Base64.decode_eq_ok_iff.mpr htext, ← hoffset]
        rfl
      · intro hnone
        cases hdecode : Base64.decode (lines.take (m + 1)).flatten with
        | ok body => exact absurd (Base64.decode_eq_ok_iff.mp hdecode) (hnone body)
        | error fault =>
            refine ⟨fault, rfl, ?_⟩
            rw [hstanza, hbody, hdecode]
            rfl
  · intro hnone
    have hfull := (full_or_exists_firstNotFull lines).resolve_right hnone
    have hread : readBody ⟨start, input.drop start⟩ = _ := readBody_of_full hfull
    rw [hstanza, hread]
    rfl

/-- A stanza with a full line of bytes that are no symbols, and a line of one character too many. -/
def faultyThenLong : Bytes :=
  ascii "-> x" ++ lineFeed :: (List.replicate 64 0x21 ++ lineFeed ::
    (List.replicate 65 0x41 ++ [lineFeed]))

/-- Of a faulty line and a long one behind it, the long one is reported. -/
theorem parseAt?_faultyThenLong :
    ∃ tag, Checked.slice? faultyThenLong 0 4 = some (ascii "-> x") ∧
      faultyThenLong[4]? = some lineFeed ∧ readWords 0 (ascii "-> x") = .ok (tag, []) ∧
      parseAt? faultyThenLong 0 = some (.error (.malformed 70 (.longBodyLine 65))) := by
  have htag : ∀ b ∈ ascii "x", isTokenByte b = true := List.all_eq_true.mp (by decide)
  have hline : Checked.slice? faultyThenLong 0 4 = some (ascii "-> x") :=
    Checked.slice?_append [] (ascii "-> x") _
  have hwords : readWords 0 (ascii "-> x") = .ok (⟨ascii "x", by decide, htag⟩, []) :=
    readWords_eq_ok_iff.mpr rfl
  have hfaulty : lineFeed ∉ List.replicate 64 (0x21 : UInt8) := by simp [lineFeed]
  have hlong : lineFeed ∉ List.replicate 65 (0x41 : UInt8) := by simp [lineFeed]
  have hlines : completeLines (faultyThenLong.drop 5) =
      [List.replicate 64 0x21, List.replicate 65 0x41] := by
    show completeLines (List.replicate 64 0x21 ++ lineFeed ::
      (List.replicate 65 0x41 ++ [lineFeed])) = _
    rw [(lines_append hfaulty).1, (lines_append hlong).1, (lines_of_notMem List.not_mem_nil).1]
  have hfirst : FirstNotFull (completeLines (faultyThenLong.drop 5)) 1
      (List.replicate 65 0x41) := by
    rw [hlines]
    exact ⟨rfl, by simp, by simp⟩
  have hframing := (parseAt?_framing hline rfl hwords).1 1 _ hfirst
  rw [List.length_replicate] at hframing
  exact ⟨_, hline, rfl, hwords, hframing.1 (by decide)⟩

end AgeFile.Stanza
