import AgeFile.Proofs.Stanza.Framing
import AgeFile.Proofs.Stanza.Layout

/-!
# Stanzas that are cut off

An input may end within a stanza. Read `read_of_cut` first: wherever that is behind the marker, the
input is said to be short of one byte behind its last line feed. A line counts only once its line
feed is there, so the complete lines of a body that is cut off are all full
(`completeLines_of_cut`), and no body ends too early.
-/

namespace AgeFile.Stanza

variable {cursor : Cursor} {stanza : Stanza} {before rest tail line after text : Bytes}

/-! ## Lines of a cut text -/

/-- A text that is cut off ends within its first line, or behind the line feed of that line. -/
theorem cut_within_or_behind (h : rest ++ tail = line ++ lineFeed :: after) :
    rest <+: line ∨ ∃ later, rest = line ++ lineFeed :: later ∧ later ++ tail = after := by
  rcases List.append_eq_append_iff.mp h with ⟨more, hline, -⟩ | ⟨later, hrest, hafter⟩
  · exact Or.inl ⟨more, hline.symm⟩
  · cases later with
    | nil =>
        rw [List.append_nil] at hrest
        exact Or.inl (hrest ▸ List.prefix_rfl)
    | cons byte later =>
        obtain ⟨rfl, hlater⟩ := List.cons.inj hafter
        exact Or.inr ⟨later, hrest, hlater.symm⟩

/-- Within a line none is complete. -/
theorem lines_within (hfeed : lineFeed ∉ line) (h : rest <+: line) :
    completeLines rest = [] ∧ unfinishedLine rest = rest :=
  lines_of_notMem fun hmem => hfeed (h.subset hmem)

/-- The complete lines of a wrapped text that is cut off are full. -/
theorem completeLines_of_cut (hfeed : lineFeed ∉ text) (hcut : rest ++ tail = wrapped text)
    (htail : tail ≠ []) : ∀ line ∈ completeLines rest, line.length = 64 := by
  -- Induction on the text: it loses its first line.
  induction hlen : text.length using Nat.strongRecOn generalizing text rest with
  | ind n ih =>
      by_cases hshort : text.length < Format.bodyLineLength
      · rw [wrapped_of_short hshort] at hcut
        rcases cut_within_or_behind hcut with hwithin | ⟨later, -, hlater⟩
        · rw [(lines_within hfeed hwithin).1]
          simp
        · exact absurd (List.append_eq_nil_iff.mp hlater).2 htail
      · have hwidth : Format.bodyLineLength = 64 := rfl
        have htake : (text.take Format.bodyLineLength).length = Format.bodyLineLength := by
          rw [List.length_take]
          omega
        have hfirst : lineFeed ∉ text.take Format.bodyLineLength :=
          fun h => hfeed (List.mem_of_mem_take h)
        rw [← List.take_append_drop Format.bodyLineLength text, wrapped_append htake,
          List.append_assoc] at hcut
        rcases cut_within_or_behind hcut with hwithin | ⟨later, rfl, hlater⟩
        · rw [(lines_within hfirst hwithin).1]
          simp
        · rw [(lines_append hfirst).1]
          refine List.forall_mem_cons.mpr ⟨htake, ?_⟩
          exact ih _ (by rw [List.length_drop]; omega)
            (fun h => hfeed (List.mem_of_mem_drop h)) hlater rfl

/-! ## What follows the last line feed -/

/-- What stands before a line feed does not follow the last one. -/
theorem unfinishedLine_append (before rest : Bytes) :
    unfinishedLine (before ++ lineFeed :: rest) = unfinishedLine rest := by
  simp only [unfinishedLine, List.splitOn_append_cons_self]
  rw [List.getLast_append_of_ne_nil]

/-- A wrapped text ends with a line feed. -/
theorem exists_wrapped_eq (text : Bytes) : ∃ before, wrapped text = before ++ [lineFeed] := by
  obtain ⟨lines, hlines, hwritten⟩ := exists_wrapping text
  have hne : lines ≠ [] := List.length_pos_iff.mp (by rw [hlines.length_eq]; omega)
  refine ⟨lines.dropLast.flatMap (fun line => line ++ [lineFeed]) ++ lines.getLast hne, ?_⟩
  rw [hwritten, List.append_assoc, ← List.flatMap_singleton (fun line => line ++ [lineFeed]),
    ← List.flatMap_append, List.dropLast_concat_getLast]

/-- What is written for stanzas does not follow the last line feed. -/
theorem unfinishedLine_stanzas_append (stanzas : List Stanza) (rest : Bytes) :
    unfinishedLine (stanzas.flatMap encode ++ rest) = unfinishedLine rest := by
  induction stanzas with
  | nil => rfl
  | cons stanza stanzas ih =>
      obtain ⟨before, hbody⟩ := exists_wrapped_eq (Base64.encode stanza.body)
      rw [List.flatMap_cons, encode, encodeBody_eq, hbody, ← List.append_assoc, List.append_assoc,
        List.append_assoc, List.singleton_append, unfinishedLine_append, ih]

/-! ## Whole stanzas -/

/-- A stanza that is cut off behind its marker is refused for the end of the input: one more byte is
needed behind those that follow the last line feed. -/
theorem read_of_cut (hcut : cursor.rest ++ tail = stanza.encode) (htail : tail ≠ [])
    (hmarker : 2 ≤ cursor.rest.length) :
    read cursor = .error (.truncated ((unfinishedLine cursor.rest).length + 1)
      (unfinishedLine cursor.rest).length) := by
  rw [encode_eq, List.append_assoc] at hcut
  have hstarts : cursor.startsWith marker = true := by
    rw [startsWith_marker_iff]
    refine List.prefix_of_prefix_length_le ?_ ⟨tail, hcut⟩ hmarker
    rw [List.append_assoc]
    exact List.prefix_append _ _
  rw [read, if_pos hstarts]
  rcases cut_within_or_behind hcut with hwithin | ⟨later, hrest, hlater⟩
  · have hnone : lineFeed ∉ cursor.rest := fun h =>
      lineFeed_notMem_words _ (hwithin.subset h)
    rw [Cursor.readLine_eq_error_iff.mpr ⟨hnone, rfl⟩, (lines_of_notMem hnone).2, error_bind]
  · have hline : cursor.readLine = .ok (marker ++ spaced (stanza.tag :: stanza.args),
        ⟨cursor.offset + (marker ++ spaced (stanza.tag :: stanza.args)).length + 1, later⟩) :=
      Cursor.readLine_eq_ok_iff.mpr ⟨lineFeed_notMem_words _, hrest, rfl⟩
    have hwords : readWords cursor.offset (marker ++ spaced (stanza.tag :: stanza.args)) =
        .ok (stanza.tag, stanza.args) := readWords_eq_ok_iff.mpr rfl
    have hfull := completeLines_of_cut (Base64.lineFeed_notMem_encode stanza.body) hlater htail
    rw [hline, ok_bind]
    simp only [hwords, ok_bind]
    rw [readBody_of_full hfull, error_bind, hrest, unfinishedLine_append]

end AgeFile.Stanza
