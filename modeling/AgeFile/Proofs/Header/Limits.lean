import AgeFile.Proofs.Header.Codec

/-!
# What the limits refuse

The limits are the only reason to refuse a header in its written form. Read
`parse_written_append_cases` first: such a header is read, or one of the two limits is reported.
`parse_written_append_eq_ok_iff` says when it is read, and `parse_written_append_of_full` that a
stanza more than allowed is refused.
-/

namespace AgeFile.Header

variable {limits : HeaderLimits} {cursor next : Cursor} {header : Header} {room : Nat}
  {done stanzas others : List Stanza} {stanza : Stanza}

/-- Stanzas in their written forms are all read, or a limit stops at one of them. -/
theorem readStanzas_cases (hspans : cursor.Spans (stanzas.flatMap Stanza.encode) next)
    (hmarker : next.startsWith Stanza.marker = false) :
    readStanzas limits cursor room done = .ok (done.reverse ++ stanzas, next) ∨
      readStanzas limits cursor room done = .error (.tooManyStanzas limits.maxStanzas) ∨
      readStanzas limits cursor room done = .error (.headerTooLarge limits.maxHeaderLength) := by
  induction stanzas generalizing cursor room done with
  | nil =>
      obtain rfl := Cursor.spans_nil_iff.mp hspans
      rw [readStanzas_of_none (Stanza.read_eq_ok_none_iff.mpr hmarker), List.append_nil]
      exact Or.inl rfl
  | cons stanza stanzas ih =>
      rw [List.flatMap_cons] at hspans
      obtain ⟨middle, hstanza, hrest⟩ := Cursor.spans_append_iff.mp hspans
      rw [readStanzas_of_some (Stanza.read_eq_ok_some_iff.mpr hstanza)]
      split
      · exact Or.inr (Or.inl rfl)
      split
      · exact Or.inr (Or.inr rfl)
      have hdone : done.reverse ++ stanza :: stanzas = (stanza :: done).reverse ++ stanzas := by
        simp
      rw [hdone]
      exact ih hrest

/-- A stanza that stands after as many as are allowed is refused. -/
theorem readStanzas_of_full {middle : Cursor}
    (hspans : cursor.Spans (stanzas.flatMap Stanza.encode) middle)
    (hstanza : middle.Spans stanza.encode next) (hfull : stanzas.length = room)
    (hlength : middle.offset ≤ limits.maxHeaderLength) :
    readStanzas limits cursor room done = .error (.tooManyStanzas limits.maxStanzas) := by
  rw [readStanzas_of_passed hspans (Nat.le_of_eq hfull) fun _ => hlength,
    readStanzas_of_some (Stanza.read_eq_ok_some_iff.mpr hstanza), if_pos (by omega)]

/-- A written header is read, or one of the limits is reported. -/
theorem read_cases (limits : HeaderLimits) (h : cursor.Spans header.written next) :
    read limits cursor = .ok (header, next) ∨
      read limits cursor = .error (.tooManyStanzas limits.maxStanzas) ∨
      read limits cursor = .error (.headerTooLarge limits.maxHeaderLength) := by
  obtain ⟨first, second, third, hversion, hspans, hmarker, hterminator, hmac, -⟩ :=
    stages_of_spans h
  rw [read, hversion, ok_bind]
  rcases readStanzas_cases hspans hmarker with hread | herror | herror
  · rw [hread, ok_bind]
    simp only [List.reverse_nil, List.nil_append, hterminator, hmac, ok_bind, checkLength]
    split
    · exact Or.inr (Or.inr rfl)
    · exact Or.inl rfl
  · rw [herror]
    exact Or.inr (Or.inl rfl)
  · rw [herror]
    exact Or.inr (Or.inr rfl)

variable {tail : Bytes}

/-- From the front of an input a written header leads to the bytes after it. -/
theorem start_spans_written (header : Header) (tail : Bytes) :
    (Cursor.start (header.written ++ tail)).Spans header.written ⟨header.written.length, tail⟩ :=
  ⟨rfl, (Nat.zero_add _).symm⟩

/-- A written header is read from the front of an input, or one of the limits is reported. -/
theorem parse_written_append_cases (header : Header) (tail : Bytes) (limits : HeaderLimits) :
    parse (header.written ++ tail) limits = .ok (header, header.written.length) ∨
      parse (header.written ++ tail) limits = .error (.tooManyStanzas limits.maxStanzas) ∨
      parse (header.written ++ tail) limits =
        .error (.headerTooLarge limits.maxHeaderLength) := by
  rw [parse]
  rcases read_cases limits (start_spans_written header tail) with h | h | h
  · rw [h]
    exact Or.inl rfl
  · rw [h]
    exact Or.inr (Or.inl rfl)
  · rw [h]
    exact Or.inr (Or.inr rfl)

/-- A written header is read exactly when the limits allow its stanzas and its length. -/
theorem parse_written_append_eq_ok_iff :
    parse (header.written ++ tail) limits = .ok (header, header.written.length) ↔
      header.stanzas.length ≤ limits.maxStanzas ∧
        header.written.length ≤ limits.maxHeaderLength := by
  refine ⟨?_, ?_⟩
  · intro h
    obtain ⟨hcount, hlength, -, -⟩ := parse_eq_ok_iff_written.mp h
    exact ⟨hcount, hlength⟩
  · intro h
    exact parse_written_append h.1 h.2 tail

/-- A written header that has a stanza after as many as are allowed is refused for their number, if
the stanzas before it end within the allowed length. -/
theorem parse_written_append_of_full (hstanzas : header.stanzas = stanzas ++ stanza :: others)
    (hfull : stanzas.length = limits.maxStanzas)
    (hlength : versionLine.length + 1 + (stanzas.flatMap Stanza.encode).length ≤
      limits.maxHeaderLength) :
    parse (header.written ++ tail) limits = .error (.tooManyStanzas limits.maxStanzas) := by
  obtain ⟨first, second, third, hversion, hspans, -⟩ :=
    stages_of_spans (start_spans_written header tail)
  rw [hstanzas, List.flatMap_append, List.flatMap_cons] at hspans
  obtain ⟨middle, hbefore, hspans⟩ := Cursor.spans_append_iff.mp hspans
  obtain ⟨after, hstanza, -⟩ := Cursor.spans_append_iff.mp hspans
  have hfirst : first.offset = 0 + (versionLine ++ [lineFeed]).length :=
    (readVersion_eq_ok_iff.mp hversion).2
  have hmiddle := hbefore.2
  rw [List.length_append, List.length_singleton] at hfirst
  rw [parse, read, hversion, ok_bind, readStanzas_of_full hbefore hstanza hfull (by omega)]
  rfl

end AgeFile.Header
