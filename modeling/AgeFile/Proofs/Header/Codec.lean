import AgeFile.Header.Reader
import AgeFile.Proofs.Stanza.Codec
import Mathlib.Algebra.GroupWithZero.Nat

/-!
# Reading a header and writing one

Read `read_eq_ok_iff` first: within the limits, a header is read at a position exactly when its
written form stands there. The parts come before it in the order of the format: the version line,
the stanzas, the terminator and the MAC line. `stanzas_unique` says that the bytes which a MAC
covers determine the stanzas, whatever follows them.
-/

namespace AgeFile.Header

variable {limits : HeaderLimits} {cursor next : Cursor}

/-- A header in its written form: the bytes that the MAC covers, and the MAC line. -/
def written (header : Header) : Bytes :=
  coveredBytes header.stanzas ++ encodeFooter header.mac

/-! ## The version line and the terminator -/

/-- The version line is read exactly where it stands. -/
theorem readVersion_eq_ok_iff :
    readVersion cursor = .ok next ↔ cursor.Spans (versionLine ++ [lineFeed]) next := by
  have hfeed : lineFeed ∉ versionLine := by decide
  rw [readVersion, bind_eq_ok_iff]
  refine ⟨?_, ?_⟩
  · intro h
    obtain ⟨⟨line, after⟩, hline, h⟩ := h
    by_cases hversion : line = versionLine
    · simp only [hversion, if_true, pure_eq_ok, Except.ok.injEq] at h
      rw [← h, ← hversion]
      exact (Cursor.readLine_eq_ok_iff_spans.mp hline).2
    · exact absurd h (by simp [hversion])
  · intro h
    refine ⟨(versionLine, next), Cursor.readLine_eq_ok_iff_spans.mpr ⟨hfeed, h⟩, ?_⟩
    simp

/-- The terminator is read exactly where it stands. -/
theorem readTerminator_eq_ok_iff :
    readTerminator cursor = .ok next ↔ cursor.Spans terminator next := by
  unfold readTerminator
  refine ⟨?_, ?_⟩
  · intro h
    split at h
    · rename_i hstarts
      rw [← Except.ok.inj h]
      exact Cursor.startsWith_iff_spans.mp hstarts
    · split at h
      · exact absurd h (by simp)
      · exact absurd h (by simp)
  · intro h
    rw [if_pos h.startsWith, h.skip_eq]

/-- No stanza begins where the terminator stands. -/
theorem not_startsWith_marker_of_terminator (bytes : Bytes)
    (h : cursor.Spans (terminator ++ bytes) next) : cursor.startsWith Stanza.marker = false :=
  Cursor.not_startsWith_of_spans h (by decide) (by decide)

/-! ## The stanzas -/

/-- A length is allowed exactly when it does not pass the limit. -/
theorem checkLength_eq_ok_iff :
    checkLength limits cursor = .ok () ↔ cursor.offset ≤ limits.maxHeaderLength := by
  unfold checkLength
  split
  · simp only [reduceCtorEq, false_iff]
    omega
  · simp only [true_iff]
    omega

variable {room : Nat} {done stanzas : List Stanza} {stanza : Stanza}

/-- Where no stanza begins, the stanzas read before are all of them. -/
theorem readStanzas_of_none (h : Stanza.read cursor = .ok none) :
    readStanzas limits cursor room done = .ok (done.reverse, cursor) := by
  rw [readStanzas]
  split
  · rename_i e herror
    exact absurd (h.symm.trans herror) (by simp)
  · rfl
  · rename_i other after hsome
    exact absurd (h.symm.trans hsome) (by simp)

/-- Where a stanza is faulty, the header is faulty in the same way. -/
theorem readStanzas_of_error {e : Error} (h : Stanza.read cursor = .error e) :
    readStanzas limits cursor room done = .error e := by
  rw [readStanzas]
  split
  · rename_i other herror
    exact congrArg _ (Except.error.inj (h.symm.trans herror)).symm
  · rename_i hnone
    exact absurd (h.symm.trans hnone) (by simp)
  · rename_i other after hsome
    exact absurd (h.symm.trans hsome) (by simp)

/-- A stanza is counted and the length up to its end is checked before reading goes on. -/
theorem readStanzas_of_some (h : Stanza.read cursor = .ok (some (stanza, next))) :
    readStanzas limits cursor room done =
      if room = 0 then .error (.tooManyStanzas limits.maxStanzas)
      else if limits.maxHeaderLength < next.offset then
        .error (.headerTooLarge limits.maxHeaderLength)
      else readStanzas limits next (room - 1) (stanza :: done) := by
  rw [readStanzas]
  split
  · rename_i other herror
    exact absurd (h.symm.trans herror) (by simp)
  · rename_i hnone
    exact absurd (h.symm.trans hnone) (by simp)
  · rename_i other after hsome
    obtain ⟨rfl, rfl⟩ := Prod.mk.inj (Option.some.inj (Except.ok.inj (h.symm.trans hsome)))
    by_cases hroom : room = 0
    · rw [if_pos hroom, if_pos hroom]
    · rw [if_neg hroom, if_neg hroom]
      by_cases hlimit : limits.maxHeaderLength < next.offset
      · simp only [checkLength, if_pos hlimit]
      · simp only [checkLength, if_neg hlimit]

/-- Stanzas that are read stand one after the other in their written forms, no further stanza begins
after them, and neither limit is passed. -/
theorem spans_of_readStanzas (h : readStanzas limits cursor room done = .ok (stanzas, next)) :
    ∃ read, stanzas = done.reverse ++ read ∧ cursor.Spans (read.flatMap Stanza.encode) next ∧
      next.startsWith Stanza.marker = false ∧ read.length ≤ room ∧
      (read ≠ [] → next.offset ≤ limits.maxHeaderLength) := by
  -- Induction on what is left to read: a stanza leaves less of it.
  induction hlen : cursor.rest.length using Nat.strongRecOn generalizing cursor room done with
  | ind n ih =>
      cases hstanza : Stanza.read cursor with
      | error e =>
          rw [readStanzas_of_error hstanza] at h
          exact absurd h (by simp)
      | ok found =>
          cases found with
          | none =>
              rw [readStanzas_of_none hstanza, Except.ok.injEq, Prod.mk.injEq] at h
              obtain ⟨rfl, rfl⟩ := h
              exact ⟨[], (List.append_nil _).symm, Cursor.spans_nil_iff.mpr rfl,
                Stanza.read_eq_ok_none_iff.mp hstanza, Nat.zero_le _, by simp⟩
          | some found =>
              obtain ⟨stanza, after⟩ := found
              have hspans := Stanza.read_eq_ok_some_iff.mp hstanza
              have hless := Stanza.length_rest_of_read hstanza
              rw [readStanzas_of_some hstanza] at h
              split at h
              · exact absurd h (by simp)
              split at h
              · exact absurd h (by simp)
              obtain ⟨read, rfl, hread, hmarker, hroom, hlimit⟩ :=
                ih after.rest.length (by omega) h rfl
              refine ⟨stanza :: read, ?_, ?_, hmarker, ?_, ?_⟩
              · rw [List.reverse_cons, List.append_assoc, List.singleton_append]
              · rw [List.flatMap_cons]
                exact hspans.append hread
              · rw [List.length_cons]
                omega
              · -- The length was checked after this stanza, if it is the last one.
                intro _
                by_cases hnil : read = []
                · subst hnil
                  rw [Cursor.spans_nil_iff.mp hread]
                  omega
                · exact hlimit hnil

/-- Where stanzas that are allowed are passed, reading goes on behind them. -/
theorem readStanzas_of_passed (hspans : cursor.Spans (stanzas.flatMap Stanza.encode) next)
    (hroom : stanzas.length ≤ room)
    (hlimit : stanzas ≠ [] → next.offset ≤ limits.maxHeaderLength) :
    readStanzas limits cursor room done =
      readStanzas limits next (room - stanzas.length) (stanzas.reverse ++ done) := by
  induction stanzas generalizing cursor room done with
  | nil =>
      obtain rfl := Cursor.spans_nil_iff.mp hspans
      rfl
  | cons stanza stanzas ih =>
      rw [List.flatMap_cons] at hspans
      obtain ⟨after, hstanza, hrest⟩ := Cursor.spans_append_iff.mp hspans
      -- The stanza ends before all of them do, so the limit holds after it too.
      have hend := hlimit (List.cons_ne_nil _ _)
      have hafter := hrest.offset_le
      rw [List.length_cons] at hroom
      rw [readStanzas_of_some (Stanza.read_eq_ok_some_iff.mpr hstanza), if_neg (by omega),
        if_neg (by omega), ih hrest (by omega) fun _ => hend, List.length_cons, List.reverse_cons,
        List.append_assoc, List.singleton_append, Nat.sub_sub, Nat.add_comm 1]

/-- Written stanzas that the limits allow are read up to where no further stanza begins. -/
theorem readStanzas_of_spans (hspans : cursor.Spans (stanzas.flatMap Stanza.encode) next)
    (hmarker : next.startsWith Stanza.marker = false) (hroom : stanzas.length ≤ room)
    (hlimit : stanzas ≠ [] → next.offset ≤ limits.maxHeaderLength) :
    readStanzas limits cursor room done = .ok (done.reverse ++ stanzas, next) := by
  rw [readStanzas_of_passed hspans hroom hlimit,
    readStanzas_of_none (Stanza.read_eq_ok_none_iff.mpr hmarker), List.reverse_append,
    List.reverse_reverse]

/-- Stanzas that are followed by the terminator are determined by the bytes at their position. -/
theorem stanzas_unique {other : List Stanza} {end₁ end₂ : Cursor}
    (h : cursor.Spans (stanzas.flatMap Stanza.encode ++ terminator) end₁)
    (hother : cursor.Spans (other.flatMap Stanza.encode ++ terminator) end₂) :
    stanzas = other := by
  -- Neither list can end before the other: a stanza and the terminator begin with different words.
  induction stanzas generalizing other cursor with
  | nil =>
      cases other with
      | nil => rfl
      | cons stanza other =>
          have hmarker := not_startsWith_marker_of_terminator [] (by simpa using h)
          rw [List.flatMap_cons, List.append_assoc] at hother
          obtain ⟨middle, hstanza, -⟩ := Cursor.spans_append_iff.mp hother
          rw [Stanza.startsWith_marker_of_spans hstanza] at hmarker
          exact absurd hmarker (by simp)
  | cons stanza stanzas ih =>
      rw [List.flatMap_cons, List.append_assoc] at h
      obtain ⟨middle, hstanza, hrest⟩ := Cursor.spans_append_iff.mp h
      cases other with
      | nil =>
          have hmarker := not_startsWith_marker_of_terminator [] (by simpa using hother)
          rw [Stanza.startsWith_marker_of_spans hstanza] at hmarker
          exact absurd hmarker (by simp)
      | cons second other =>
          rw [List.flatMap_cons, List.append_assoc] at hother
          obtain ⟨middle', hsecond, hrest'⟩ := Cursor.spans_append_iff.mp hother
          have hsame := (Stanza.read_eq_ok_some_iff.mpr hstanza).symm.trans
            (Stanza.read_eq_ok_some_iff.mpr hsecond)
          obtain ⟨rfl, rfl⟩ := Prod.mk.inj (Option.some.inj (Except.ok.inj hsame))
          rw [ih hrest hrest']

/-! ## The MAC line -/

variable {mac : Mac}

/-- The MAC line always has the same length. -/
theorem length_encodeFooter (mac : Mac) : (encodeFooter mac).length = Format.footerLength := by
  rw [encodeFooter, List.length_append, List.length_append, Base64.length_encode, mac.length_eq]
  rfl

/-- The text of a MAC always has the same length. -/
theorem length_encode_mac (mac : Mac) :
    (Base64.encode mac.bytes).length = Format.macTextLength := by
  rw [Base64.length_encode, mac.length_eq]
  rfl

/-- Bytes that are long enough for a MAC line have its parts: a byte, a text, another byte. -/
theorem exists_footer_parts {rest : Bytes} (h : Format.footerLength ≤ rest.length) :
    ∃ first text last tail, text.length = Format.macTextLength ∧
      rest = first :: text ++ last :: tail := by
  have hlength : Format.footerLength = 45 := rfl
  have htext : Format.macTextLength = 43 := rfl
  cases rest with
  | nil => exact absurd h (by simp)
  | cons first rest =>
      rw [List.length_cons] at h
      refine ⟨first, rest.take Format.macTextLength, rest[Format.macTextLength],
        rest.drop (Format.macTextLength + 1), ?_, ?_⟩
      · rw [List.length_take]
        omega
      · rw [List.cons_append, ← List.drop_eq_getElem_cons, List.take_append_drop]

/-- The MAC line is judged from its ends inwards: the space, the line feed, the text. -/
theorem readMac_of_rest {first last : UInt8} {text tail : Bytes}
    (htext : text.length = Format.macTextLength)
    (hrest : cursor.rest = first :: text ++ last :: tail) :
    readMac cursor =
      if first ≠ space then .error (.malformed cursor.offset (.macSpace first))
      else if last ≠ lineFeed then
        .error (.malformed (cursor.offset + Format.footerLength - 1) (.macLineFeed last))
      else
        match Base64.decode text with
        | .error fault => .error (.malformed (cursor.offset + 1) (.mac fault))
        | .ok bytes =>
            match FixedBytes.ofBytes? Format.macSize bytes with
            | none => .error (.malformed (cursor.offset + 1) (.macLength bytes.length))
            | some mac => .ok (mac, cursor.skip Format.footerLength) := by
  have hlength : ¬ cursor.rest.length < Format.footerLength := by
    rw [hrest, List.length_append, List.length_cons, List.length_cons, htext,
      show Format.footerLength = 1 + Format.macTextLength + 1 from rfl]
    omega
  have hfirst : cursor.rest.getD 0 0 = first := by rw [hrest]; rfl
  have hlast : cursor.rest.getD (Format.footerLength - 1) 0 = last := by
    rw [hrest, List.getD_eq_getElem?_getD,
      List.getElem?_append_right (by simp [htext, Nat.add_comm]), List.length_cons, htext]
    rfl
  have hmiddle : (cursor.rest.drop 1).take Format.macTextLength = text := by
    rw [hrest, List.cons_append, List.drop_succ_cons, List.drop_zero, ← htext, List.take_left]
  rw [← hfirst, ← hlast, ← hmiddle]
  exact if_neg hlength

/-- A MAC is read exactly where its line stands. -/
theorem readMac_eq_ok_iff :
    readMac cursor = .ok (mac, next) ↔ cursor.Spans (encodeFooter mac) next := by
  refine ⟨?_, ?_⟩
  · intro h
    by_cases hlength : cursor.rest.length < Format.footerLength
    · rw [readMac, if_pos hlength] at h
      exact absurd h (by simp)
    · obtain ⟨first, text, last, tail, htext, hrest⟩ :=
        exists_footer_parts (Nat.le_of_not_lt hlength)
      rw [readMac_of_rest htext hrest] at h
      split at h
      · exact absurd h (by simp)
      rename_i hfirst
      split at h
      · exact absurd h (by simp)
      rename_i hlast
      split at h
      · exact absurd h (by simp)
      rename_i bytes hdecode
      split at h
      · exact absurd h (by simp)
      rename_i found hfound
      -- Every check passed, so the parts are those of the line that is written for the MAC.
      obtain ⟨rfl, rfl⟩ := Prod.mk.inj (Except.ok.inj h)
      obtain rfl := FixedBytes.ofBytes?_eq_some_iff.mp hfound
      obtain rfl := Base64.decode_eq_ok_iff.mp hdecode
      obtain rfl := Decidable.not_not.mp hfirst
      obtain rfl := Decidable.not_not.mp hlast
      have hstarts : cursor.startsWith (encodeFooter found) = true := by
        rw [Cursor.startsWith, List.isPrefixOf_iff_prefix, hrest]
        exact ⟨tail, by simp [encodeFooter]⟩
      rw [← length_encodeFooter found]
      exact Cursor.startsWith_iff_spans.mp hstarts
  · intro h
    have hrest : cursor.rest = space :: Base64.encode mac.bytes ++ lineFeed :: next.rest := by
      rw [h.1, encodeFooter]
      simp
    rw [readMac_of_rest (length_encode_mac mac) hrest, if_neg (by simp), if_neg (by simp)]
    simp only [Base64.decode_encode, FixedBytes.ofBytes?_bytes]
    rw [← length_encodeFooter mac, h.skip_eq]

/-! ## Whole headers -/

/-- A written header is the version line, its stanzas, the terminator and the MAC line. -/
theorem written_eq (header : Header) :
    header.written = versionLine ++ [lineFeed] ++
      (header.stanzas.flatMap Stanza.encode ++ (terminator ++ encodeFooter header.mac)) := by
  simp [written, coveredBytes]

/-- The parts of a written header are read one after the other; its stanzas stand between the
version line and the terminator. -/
theorem stages_of_spans {header : Header} (h : cursor.Spans header.written next) :
    ∃ first second third, readVersion cursor = .ok first ∧
      first.Spans (header.stanzas.flatMap Stanza.encode) second ∧
      second.startsWith Stanza.marker = false ∧ readTerminator second = .ok third ∧
      readMac third = .ok (header.mac, next) ∧ second.offset ≤ next.offset := by
  rw [written_eq] at h
  obtain ⟨first, hversion, h⟩ := Cursor.spans_append_iff.mp h
  obtain ⟨second, hstanzas, h⟩ := Cursor.spans_append_iff.mp h
  have hmarker := not_startsWith_marker_of_terminator _ h
  have hsecond := h.offset_le
  obtain ⟨third, hterminator, hmac⟩ := Cursor.spans_append_iff.mp h
  exact ⟨first, second, third, readVersion_eq_ok_iff.mpr hversion, hstanzas, hmarker,
    readTerminator_eq_ok_iff.mpr hterminator, readMac_eq_ok_iff.mpr hmac, hsecond⟩

/-- Within the limits, a header is read exactly where its written form stands. -/
theorem read_eq_ok_iff {header : Header} :
    read limits cursor = .ok (header, next) ↔
      header.stanzas.length ≤ limits.maxStanzas ∧ next.offset ≤ limits.maxHeaderLength ∧
        cursor.Spans header.written next := by
  refine ⟨?_, ?_⟩
  · intro h
    obtain ⟨first, hversion, h⟩ := bind_eq_ok_iff.mp h
    obtain ⟨⟨stanzas, second⟩, hstanzas, h⟩ := bind_eq_ok_iff.mp h
    obtain ⟨third, hterminator, h⟩ := bind_eq_ok_iff.mp h
    obtain ⟨⟨mac, last⟩, hmac, h⟩ := bind_eq_ok_iff.mp h
    obtain ⟨⟨⟩, hlength, h⟩ := bind_eq_ok_iff.mp h
    obtain ⟨rfl, rfl⟩ := Prod.mk.inj (Except.ok.inj h)
    obtain ⟨read, rfl, hread, -, hroom, -⟩ := spans_of_readStanzas hstanzas
    refine ⟨hroom, checkLength_eq_ok_iff.mp hlength, ?_⟩
    rw [written_eq]
    exact (readVersion_eq_ok_iff.mp hversion).append (hread.append
      ((readTerminator_eq_ok_iff.mp hterminator).append (readMac_eq_ok_iff.mp hmac)))
  · intro h
    obtain ⟨hroom, hlength, hspans⟩ := h
    obtain ⟨first, second, third, hversion, hstanzas, hmarker, hterminator, hmac, hsecond⟩ :=
      stages_of_spans hspans
    have hread : readStanzas limits first limits.maxStanzas [] = .ok (header.stanzas, second) :=
      readStanzas_of_spans hstanzas hmarker hroom fun _ => by omega
    simp only [read, hversion, hread, hterminator, hmac, checkLength_eq_ok_iff.mpr hlength, ok_bind]
    rfl

/-- Within the limits, a header is read from the front of an input exactly when its written form
comes first, and the offset after it is the length of that form. -/
theorem parse_eq_ok_iff_written {input : Bytes} {header : Header} {offset : Nat} :
    parse input limits = .ok (header, offset) ↔
      header.stanzas.length ≤ limits.maxStanzas ∧ offset ≤ limits.maxHeaderLength ∧
        offset ≤ input.length ∧ input.take offset = header.written := by
  rw [parse, map_eq_ok_iff, ← Cursor.start_spans_iff]
  refine ⟨?_, ?_⟩
  · intro h
    obtain ⟨⟨found, next⟩, hread, h⟩ := h
    obtain ⟨rfl, rfl⟩ := Prod.mk.inj h
    obtain ⟨hcount, hlength, hspans⟩ := read_eq_ok_iff.mp hread
    exact ⟨hcount, hlength, next, hspans, rfl⟩
  · intro h
    obtain ⟨hcount, hlength, next, hspans, rfl⟩ := h
    exact ⟨(header, next), read_eq_ok_iff.mpr ⟨hcount, hlength, hspans⟩, rfl⟩

/-- After a header that was read from the front of an input comes the rest of that input. -/
theorem read_of_parse {input : Bytes} {header : Header} {offset : Nat}
    (h : parse input limits = .ok (header, offset)) :
    read limits (Cursor.start input) = .ok (header, ⟨offset, input.drop offset⟩) := by
  rw [parse] at h
  obtain ⟨⟨found, next⟩, hread, hfound⟩ := map_eq_ok_iff.mp h
  obtain ⟨rfl, rfl⟩ := Prod.mk.inj hfound
  obtain ⟨-, -, hrest, hoffset⟩ := read_eq_ok_iff.mp hread
  have hnext : next = ⟨next.offset, input.drop next.offset⟩ := by
    refine Cursor.eq_of_rest ?_ rfl
    show next.rest = input.drop next.offset
    have hinput : input = found.written ++ next.rest := hrest
    have hlength : next.offset = found.written.length := hoffset.trans (Nat.zero_add _)
    rw [hlength, hinput, List.drop_left]
  rw [hread, ← hnext]

/-- The bytes that a MAC covers take 25 bytes and those of the stanzas. -/
theorem length_coveredBytes (stanzas : List Stanza) :
    (coveredBytes stanzas).length =
      25 + (stanzas.map fun stanza => stanza.encode.length).sum := by
  rw [coveredBytes, List.length_append, List.length_append, List.length_append,
    List.length_flatMap, show versionLine.length = 21 from rfl,
    show terminator.length = 3 from rfl, List.length_singleton]
  omega

/-- The MAC line adds the same number of bytes to every header. -/
theorem length_written (header : Header) :
    header.written.length = (coveredBytes header.stanzas).length + Format.footerLength := by
  rw [written, List.length_append, length_encodeFooter]

/-- A header that the limits allow is read back from its written form, whatever follows. -/
theorem parse_written_append {header : Header} (hcount : header.stanzas.length ≤ limits.maxStanzas)
    (hlength : header.written.length ≤ limits.maxHeaderLength) (tail : Bytes) :
    parse (header.written ++ tail) limits = .ok (header, header.written.length) := by
  refine parse_eq_ok_iff_written.mpr ⟨hcount, hlength, ?_, List.take_left⟩
  rw [List.length_append]
  exact Nat.le_add_right _ _

end AgeFile.Header
