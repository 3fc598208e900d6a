import AgeFile.Proofs.Base64.Canonical
import AgeFile.Proofs.Cursor.Span
import AgeFile.Stanza.Reader

/-!
# The lines of a stanza's body

A body is wrapped into full lines and one that is not full. Read `readBody_eq_ok_iff` first: the
bytes at a position are read as a body exactly when they are the wrapped encoding of that body, so
the first line that is not full ends the body whatever follows it.
-/

namespace AgeFile.Stanza

/-- A text in full lines, and after them the rest of it in a line that is not full. -/
def wrapped (text : Bytes) : Bytes :=
  (pieces Format.bodyLineLength text).flatMap (fun line => line ++ [lineFeed]) ++
    if text.length % Format.bodyLineLength = 0 then [lineFeed] else []

/-- A body is written as its wrapped encoding. -/
theorem encodeBody_eq (body : Bytes) : encodeBody body = wrapped (Base64.encode body) := rfl

/-- A text that does not fill a line is written on one line. -/
theorem wrapped_of_short {text : Bytes} (h : text.length < Format.bodyLineLength) :
    wrapped text = text ++ [lineFeed] := by
  have hline : Format.bodyLineLength = 64 := rfl
  by_cases hnil : text = []
  · subst hnil
    rfl
  · have hpos : 0 < text.length := List.length_pos_iff.mpr hnil
    rw [wrapped, pieces_of_ne_nil _ (by omega) _ hnil, List.take_of_length_le (by omega),
      List.drop_of_length_le (by omega), if_neg (by rw [Nat.mod_eq_of_lt h]; omega)]
    simp

/-- A text that begins with a full line is written as this line and the others. -/
theorem wrapped_append {line text : Bytes} (h : line.length = Format.bodyLineLength) :
    wrapped (line ++ text) = line ++ [lineFeed] ++ wrapped text := by
  have hpos : 0 < Format.bodyLineLength := by decide
  have hnil : line ≠ [] := fun hnil => by simp [hnil] at h
  rw [wrapped, pieces_append _ hpos line text (by rw [h, Nat.mod_self]),
    pieces_of_ne_nil _ hpos line hnil, List.take_of_length_le (by omega),
    List.drop_of_length_le (by omega), List.length_append, h, Nat.add_mod_left, wrapped]
  simp

variable {cursor next : Cursor} {done : List Bytes} {text : Bytes}

/-- After a line was read, its length says whether the body is too wide, goes on or is complete. -/
theorem readLines_of_readLine {line : Bytes} (h : cursor.readLine = .ok (line, next)) :
    readLines cursor done =
      if Format.bodyLineLength < line.length then
        .error (.malformed cursor.offset (.longBodyLine line.length))
      else if line.length = Format.bodyLineLength then readLines next (line :: done)
      else .ok ((line :: done).reverse.flatten, next) := by
  rw [readLines]
  split
  · rename_i e herror
    exact absurd (h.symm.trans herror) (by simp)
  · rename_i other after hother
    obtain ⟨rfl, rfl⟩ := Prod.mk.inj (Except.ok.inj (h.symm.trans hother))
    rfl

/-- Where no line can be read, the body lines cannot either. -/
theorem readLines_of_readLine_error {e : Error} (h : cursor.readLine = .error e) :
    readLines cursor done = .error e := by
  rw [readLines]
  split
  · rename_i other hother
    exact congrArg _ (Except.error.inj (h.symm.trans hother)).symm
  · rename_i line after hline
    exact absurd (h.symm.trans hline) (by simp)

/-- The line read last comes after the text of the lines before it. -/
theorem flatten_reverse_cons (line : Bytes) (done : List Bytes) :
    (line :: done).reverse.flatten = done.reverse.flatten ++ line := by
  rw [List.reverse_cons, List.flatten_append, List.flatten_singleton]

/-- Body lines that are read are what a text is wrapped into. -/
theorem spans_of_readLines (h : readLines cursor done = .ok (text, next)) :
    ∃ read, lineFeed ∉ read ∧ cursor.Spans (wrapped read) next ∧
      text = done.reverse.flatten ++ read := by
  -- Induction on what is left to read: a full line leaves less of it.
  induction hlen : cursor.rest.length using Nat.strongRecOn generalizing cursor done with
  | ind n ih =>
      cases hline : cursor.readLine with
      | error e =>
          rw [readLines_of_readLine_error hline] at h
          exact absurd h (by simp)
      | ok found =>
          obtain ⟨line, after⟩ := found
          have hstep := Cursor.length_rest_of_readLine hline
          obtain ⟨hfeed, hspans⟩ := Cursor.readLine_eq_ok_iff_spans.mp hline
          rw [readLines_of_readLine hline] at h
          split at h
          · exact absurd h (by simp)
          · split at h
            · rename_i hfull
              obtain ⟨read, hread, hafter, rfl⟩ := ih after.rest.length (by omega) h rfl
              refine ⟨line ++ read, ?_, ?_, ?_⟩
              · rw [List.mem_append, not_or]
                exact ⟨hfeed, hread⟩
              · rw [wrapped_append hfull]
                exact hspans.append hafter
              · rw [flatten_reverse_cons, List.append_assoc]
            · simp only [Except.ok.injEq, Prod.mk.injEq] at h
              obtain ⟨rfl, rfl⟩ := h
              refine ⟨line, hfeed, ?_, ?_⟩
              · rw [wrapped_of_short (by omega)]
                exact hspans
              · exact flatten_reverse_cons line done

/-- The lines that a text is wrapped into are read, and reading stops after the last of them. -/
theorem readLines_of_spans (hfeed : lineFeed ∉ text) (hspans : cursor.Spans (wrapped text) next) :
    readLines cursor done = .ok (done.reverse.flatten ++ text, next) := by
  -- Induction on the text: it loses its first line.
  induction hlen : text.length using Nat.strongRecOn generalizing cursor done text with
  | ind n ih =>
      by_cases hshort : text.length < Format.bodyLineLength
      · rw [wrapped_of_short hshort] at hspans
        rw [readLines_of_readLine (Cursor.readLine_eq_ok_iff_spans.mpr ⟨hfeed, hspans⟩),
          if_neg (by omega), if_neg (by omega), flatten_reverse_cons]
      · have htake : (text.take Format.bodyLineLength).length = Format.bodyLineLength := by
          rw [List.length_take]
          omega
        have hwidth : Format.bodyLineLength = 64 := rfl
        rw [← List.take_append_drop Format.bodyLineLength text, wrapped_append htake] at hspans
        obtain ⟨middle, hline, hrest⟩ := Cursor.spans_append_iff.mp hspans
        have hread : readLines middle (text.take Format.bodyLineLength :: done) =
            .ok ((text.take Format.bodyLineLength :: done).reverse.flatten ++
              text.drop Format.bodyLineLength, next) :=
          ih _ (by rw [List.length_drop]; omega)
            (fun hmem => hfeed (List.mem_of_mem_drop hmem)) hrest rfl
        have hfirst : cursor.readLine = .ok (text.take Format.bodyLineLength, middle) :=
          Cursor.readLine_eq_ok_iff_spans.mpr
            ⟨fun hmem => hfeed (List.mem_of_mem_take hmem), hline⟩
        rw [readLines_of_readLine hfirst, if_neg (by omega), if_pos htake, hread,
          flatten_reverse_cons, List.append_assoc, List.take_append_drop]

/-- The bytes at a position are read as a body exactly when they are what is written for it. -/
theorem readBody_eq_ok_iff {body : Bytes} :
    readBody cursor = .ok (body, next) ↔ cursor.Spans (encodeBody body) next := by
  rw [readBody, encodeBody_eq, bind_eq_ok_iff]
  refine ⟨?_, ?_⟩
  · intro h
    obtain ⟨⟨text, after⟩, hlines, h⟩ := h
    obtain ⟨read, -, hspans, rfl⟩ := spans_of_readLines hlines
    cases hdecode : Base64.decode text with
    | error fault => exact absurd h (by simp [hdecode])
    | ok bytes =>
        simp only [hdecode, pure_eq_ok, Except.ok.injEq, Prod.mk.injEq] at h
        obtain ⟨rfl, rfl⟩ := h
        rw [← Base64.decode_eq_ok_iff.mp hdecode]
        exact hspans
  · intro hspans
    refine ⟨(Base64.encode body, next), ?_, ?_⟩
    · exact readLines_of_spans (Base64.lineFeed_notMem_encode body) hspans
    · simp only [Base64.decode_encode]
      rfl

end AgeFile.Stanza
