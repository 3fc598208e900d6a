import AgeFile.Proofs.Cursor.Position
import AgeFile.Proofs.Header.Codec
import AgeFile.Proofs.Stanza.Failure

/-!
# How reading a header fails

Read `ReadFailure` first: it lists where reading a header can stop, and with which error.
`read_eq_error_iff` says that reading fails in these ways and in no other, so facts about the
errors of a header are proved by cases on them. `Reached` says which positions are reached between
two stanzas; every failure after the version line happens at one of them or behind it.
-/

namespace AgeFile.Header

/-- A position is reached behind the version line and some stanzas that the limits allow. -/
structure Reached (limits : HeaderLimits) (cursor : Cursor) (stanzas : List Stanza)
    (next : Cursor) : Prop where
  spans : cursor.Spans (versionLine ++ [lineFeed] ++ stanzas.flatMap Stanza.encode) next
  length_le : stanzas.length ≤ limits.maxStanzas
  offset_le : stanzas ≠ [] → next.offset ≤ limits.maxHeaderLength

/-- How reading the MAC line can fail. Once there are enough bytes for it, they are judged from the
ends inwards: a byte where the space belongs, one where the line feed belongs, and the text between
them. -/
inductive MacFailure (cursor : Cursor) : Error → Prop
  /-- There are not enough bytes for a MAC line. -/
  | missing (hshort : cursor.rest.length < Format.footerLength) : MacFailure cursor .macNotFound
  /-- No space follows the terminator. -/
  | noSpace {first last : UInt8} {text tail : Bytes} (htext : text.length = Format.macTextLength)
      (hrest : cursor.rest = first :: text ++ last :: tail) (hfirst : first ≠ space) :
      MacFailure cursor (.malformed cursor.offset (.macSpace first))
  /-- No line feed follows the text. -/
  | noLineFeed {last : UInt8} {text tail : Bytes} (htext : text.length = Format.macTextLength)
      (hrest : cursor.rest = space :: text ++ last :: tail) (hlast : last ≠ lineFeed) :
      MacFailure cursor
        (.malformed (cursor.offset + Format.footerLength - 1) (.macLineFeed last))
  /-- The text is no encoding. -/
  | fault {text tail : Bytes} {fault : Base64.Fault} (htext : text.length = Format.macTextLength)
      (hrest : cursor.rest = space :: text ++ lineFeed :: tail)
      (hdecode : Base64.decode text = .error fault) :
      MacFailure cursor (.malformed (cursor.offset + 1) (.mac fault))

/-- How reading a header can fail. -/
inductive ReadFailure (limits : HeaderLimits) (cursor : Cursor) : Error → Prop
  /-- The input ends within the first line. -/
  | cut (hcut : lineFeed ∉ cursor.rest) :
      ReadFailure limits cursor (.truncated (cursor.rest.length + 1) cursor.rest.length)
  /-- The first line is not the version line. -/
  | version {next : Cursor} {line : Bytes} (hline : cursor.readLine = .ok (line, next))
      (hversion : line ≠ versionLine) :
      ReadFailure limits cursor (.unsupportedVersion (Text.readLossy line))
  /-- A stanza cannot be read. -/
  | stanza {stanzas : List Stanza} {middle : Cursor} {e : Error}
      (hreached : Reached limits cursor stanzas middle) (hstanza : Stanza.ReadFailure middle e) :
      ReadFailure limits cursor e
  /-- A stanza follows after as many as are allowed. -/
  | tooMany {stanzas : List Stanza} {middle next : Cursor} {stanza : Stanza}
      (hreached : Reached limits cursor stanzas middle)
      (hstanza : middle.Spans stanza.encode next) (hfull : stanzas.length = limits.maxStanzas) :
      ReadFailure limits cursor (.tooManyStanzas limits.maxStanzas)
  /-- A stanza ends beyond the allowed length. -/
  | stanzaTooLong {stanzas : List Stanza} {middle next : Cursor} {stanza : Stanza}
      (hreached : Reached limits cursor stanzas middle)
      (hstanza : middle.Spans stanza.encode next) (hroom : stanzas.length < limits.maxStanzas)
      (hlong : limits.maxHeaderLength < next.offset) :
      ReadFailure limits cursor (.headerTooLarge limits.maxHeaderLength)
  /-- The input ends behind the stanzas. -/
  | ended {stanzas : List Stanza} {middle : Cursor}
      (hreached : Reached limits cursor stanzas middle) (hend : middle.rest = []) :
      ReadFailure limits cursor (.truncated terminator.length 0)
  /-- Neither a stanza nor the terminator follows. -/
  | unexpected {stanzas : List Stanza} {middle : Cursor} {found : UInt8} {rest : Bytes}
      (hreached : Reached limits cursor stanzas middle) (hrest : middle.rest = found :: rest)
      (hmarker : middle.startsWith Stanza.marker = false)
      (hterminator : middle.startsWith terminator = false) :
      ReadFailure limits cursor (.malformed middle.offset (.stanzaOrTerminator found))
  /-- The MAC line cannot be read. -/
  | mac {stanzas : List Stanza} {middle last : Cursor} {e : Error}
      (hreached : Reached limits cursor stanzas middle) (hterminator : middle.Spans terminator last)
      (hmac : MacFailure last e) : ReadFailure limits cursor e
  /-- The MAC line ends beyond the allowed length. -/
  | tooLong {stanzas : List Stanza} {middle last next : Cursor} {mac : Mac}
      (hreached : Reached limits cursor stanzas middle) (hterminator : middle.Spans terminator last)
      (hmac : readMac last = .ok (mac, next)) (hlong : limits.maxHeaderLength < next.offset) :
      ReadFailure limits cursor (.headerTooLarge limits.maxHeaderLength)

variable {limits : HeaderLimits} {cursor first middle next : Cursor} {room : Nat}
  {done stanzas : List Stanza} {mac : Mac} {e : Error}

/-! ## The stanzas -/

/-- Stanzas that cannot be read end with one that is faulty, or one that a limit refuses. -/
theorem stop_of_readStanzas (h : readStanzas limits cursor room done = .error e) :
    ∃ read middle, cursor.Spans (read.flatMap Stanza.encode) middle ∧ read.length ≤ room ∧
      (read ≠ [] → middle.offset ≤ limits.maxHeaderLength) ∧
      (Stanza.ReadFailure middle e ∨ ∃ stanza next, middle.Spans (Stanza.encode stanza) next ∧
        (read.length = room ∧ e = .tooManyStanzas limits.maxStanzas ∨
          read.length < room ∧ limits.maxHeaderLength < next.offset ∧
            e = .headerTooLarge limits.maxHeaderLength)) := by
  -- Induction on what is left to read: a stanza leaves less of it.
  induction hlen : cursor.rest.length using Nat.strongRecOn generalizing cursor room done with
  | ind n ih =>
      cases hstanza : Stanza.read cursor with
      | error other =>
          rw [readStanzas_of_error hstanza] at h
          obtain rfl := Except.error.inj h
          exact ⟨[], cursor, Cursor.spans_nil_iff.mpr rfl, Nat.zero_le _, by simp,
            Or.inl (Stanza.read_eq_error_iff.mp hstanza)⟩
      | ok found =>
          cases found with
          | none =>
              rw [readStanzas_of_none hstanza] at h
              exact absurd h (by simp)
          | some found =>
              obtain ⟨stanza, after⟩ := found
              have hspans := Stanza.read_eq_ok_some_iff.mp hstanza
              have hless := Stanza.length_rest_of_read hstanza
              have hnone : cursor.Spans (([] : List Stanza).flatMap Stanza.encode) cursor :=
                Cursor.spans_nil_iff.mpr rfl
              rw [readStanzas_of_some hstanza] at h
              split at h
              · rename_i hroom
                exact ⟨[], cursor, hnone, Nat.zero_le _, by simp, Or.inr ⟨stanza, after, hspans,
                  Or.inl ⟨hroom.symm, (Except.error.inj h).symm⟩⟩⟩
              · rename_i hroom
                split at h
                · rename_i hlong
                  exact ⟨[], cursor, hnone, Nat.zero_le _, by simp, Or.inr ⟨stanza, after, hspans,
                    Or.inr ⟨Nat.pos_of_ne_zero hroom, hlong, (Except.error.inj h).symm⟩⟩⟩
                · rename_i hlength
                  obtain ⟨read, middle, hread, hcount, hlimit, hstop⟩ :=
                    ih after.rest.length (by omega) h rfl
                  refine ⟨stanza :: read, middle, ?_, ?_, ?_, ?_⟩
                  · rw [List.flatMap_cons]
                    exact hspans.append hread
                  · rw [List.length_cons]
                    omega
                  · intro _
                    -- The length was checked after this stanza, if it is the last one.
                    by_cases hnil : read = []
                    · subst hnil
                      rw [Cursor.spans_nil_iff.mp hread]
                      omega
                    · exact hlimit hnil
                  · rw [List.length_cons]
                    rcases hstop with hfailure | ⟨last, next, hlast, hstop⟩
                    · exact Or.inl hfailure
                    · refine Or.inr ⟨last, next, hlast, ?_⟩
                      rcases hstop with ⟨hfull, rfl⟩ | ⟨hless, hlong, rfl⟩
                      · exact Or.inl ⟨by omega, rfl⟩
                      · exact Or.inr ⟨by omega, hlong, rfl⟩

/-! ## The end of a header -/

/-- The terminator is missed at the end of the input, or where something else follows. -/
theorem readTerminator_eq_error_iff : readTerminator cursor = .error e ↔
    cursor.rest = [] ∧ e = .truncated terminator.length 0 ∨
      cursor.startsWith terminator = false ∧ ∃ found rest, cursor.rest = found :: rest ∧
        e = .malformed cursor.offset (.stanzaOrTerminator found) := by
  unfold readTerminator
  cases hstarts : cursor.startsWith terminator with
  | true =>
      simp only [if_true, reduceCtorEq, Bool.true_eq_false, false_and, or_false, false_iff,
        not_and]
      intro hend
      rw [Cursor.startsWith, hend] at hstarts
      exact absurd hstarts (by decide)
  | false =>
      cases hrest : cursor.rest with
      | nil => simp [eq_comm]
      | cons found rest => simp [eq_comm]

/-- Text as long as that of a MAC encodes as many bytes as a MAC has. -/
theorem length_of_decode_mac {text bytes : Bytes} (htext : text.length = Format.macTextLength)
    (hdecode : Base64.decode text = .ok bytes) : bytes.length = Format.macSize := by
  obtain rfl := Base64.decode_eq_ok_iff.mp hdecode
  have hlength : (4 * bytes.length + 2) / 3 = 43 := (Base64.length_encode bytes).symm.trans htext
  show bytes.length = 32
  omega

/-- A MAC line that cannot be read fails in one of these ways: text that encodes any bytes encodes
as many as a MAC has. -/
theorem readMac_eq_error_iff : readMac cursor = .error e ↔ MacFailure cursor e := by
  refine ⟨?_, ?_⟩
  · intro h
    by_cases hshort : cursor.rest.length < Format.footerLength
    · rw [readMac, if_pos hshort] at h
      obtain rfl := Except.error.inj h
      exact .missing hshort
    · obtain ⟨first, text, last, tail, htext, hrest⟩ :=
        exists_footer_parts (Nat.le_of_not_lt hshort)
      rw [readMac_of_rest htext hrest] at h
      split at h
      · rename_i hfirst
        obtain rfl := Except.error.inj h
        exact .noSpace htext hrest hfirst
      rename_i hfirst
      obtain rfl := Decidable.not_not.mp hfirst
      split at h
      · rename_i hlast
        obtain rfl := Except.error.inj h
        exact .noLineFeed htext hrest hlast
      rename_i hlast
      obtain rfl := Decidable.not_not.mp hlast
      split at h
      · rename_i fault hdecode
        obtain rfl := Except.error.inj h
        exact .fault htext hrest hdecode
      rename_i bytes hdecode
      have hlength := length_of_decode_mac htext hdecode
      rw [FixedBytes.ofBytes?, dif_pos hlength] at h
      exact absurd h (by simp)
  · intro h
    cases h with
    | missing hshort => rw [readMac, if_pos hshort]
    | noSpace htext hrest hfirst => rw [readMac_of_rest htext hrest, if_pos hfirst]
    | noLineFeed htext hrest hlast =>
        rw [readMac_of_rest htext hrest, if_neg (by simp), if_pos hlast]
    | fault htext hrest hdecode =>
        rw [readMac_of_rest htext hrest, if_neg (by simp), if_neg (by simp), hdecode]

/-! ## Whole headers -/

/-- A position that is reached from the beginning of an input lies in the input. -/
theorem Reached.isIn {input : Bytes} (h : Reached limits (Cursor.start input) stanzas middle) :
    middle.IsIn input :=
  h.spans.isIn (Cursor.start_isIn input)

/-- A position that is reached from the beginning lies behind the version line. -/
theorem Reached.le_offset {input : Bytes}
    (h : Reached limits (Cursor.start input) stanzas middle) : 22 ≤ middle.offset := by
  obtain ⟨first, hversion, hstanzas⟩ := Cursor.spans_append_iff.mp h.spans
  have hfirst : first.offset = 22 := hversion.2
  have hle := hstanzas.offset_le
  omega

/-- Reading comes to every position that is reached. -/
theorem Reached.read_eq (h : Reached limits cursor stanzas middle) :
    read limits cursor = (do
      let (stanzas, next) ← readStanzas limits middle (limits.maxStanzas - stanzas.length)
        stanzas.reverse
      let next ← readTerminator next
      let (mac, next) ← readMac next
      checkLength limits next
      return (⟨stanzas, mac⟩, next)) := by
  obtain ⟨first, hversion, hstanzas⟩ := Cursor.spans_append_iff.mp h.spans
  rw [read, readVersion_eq_ok_iff.mpr hversion, ok_bind,
    readStanzas_of_passed hstanzas h.length_le h.offset_le, List.append_nil]

/-- No stanza follows where the terminator is read. -/
theorem Reached.read_of_none (h : Reached limits cursor stanzas middle)
    (hmarker : middle.startsWith Stanza.marker = false) :
    read limits cursor = (do
      let next ← readTerminator middle
      let (mac, next) ← readMac next
      checkLength limits next
      return (⟨stanzas, mac⟩, next)) := by
  rw [h.read_eq, readStanzas_of_none (Stanza.read_eq_ok_none_iff.mpr hmarker), ok_bind,
    List.reverse_reverse]

/-- A failure that is described comes about. -/
theorem ReadFailure.read_eq (h : ReadFailure limits cursor e) : read limits cursor = .error e := by
  cases h with
  | cut hcut =>
      rw [read, readVersion, Cursor.readLine_eq_error_iff.mpr ⟨hcut, rfl⟩]
      rfl
  | version hline hversion =>
      simp only [read, readVersion, hline, ok_bind, if_neg hversion, throw_eq_error, error_bind]
  | stanza hreached hstanza =>
      rw [hreached.read_eq, readStanzas_of_error (Stanza.read_eq_error_iff.mpr hstanza),
        error_bind]
  | tooMany hreached hstanza hfull =>
      rw [hreached.read_eq, readStanzas_of_some (Stanza.read_eq_ok_some_iff.mpr hstanza),
        if_pos (by omega), error_bind]
  | stanzaTooLong hreached hstanza hroom hlong =>
      rw [hreached.read_eq, readStanzas_of_some (Stanza.read_eq_ok_some_iff.mpr hstanza),
        if_neg (by omega), if_pos hlong, error_bind]
  | @ended stanzas middle hreached hend =>
      have hmarker : middle.startsWith Stanza.marker = false := by
        rw [Cursor.startsWith, hend]
        rfl
      rw [hreached.read_of_none hmarker, readTerminator_eq_error_iff.mpr (Or.inl ⟨hend, rfl⟩),
        error_bind]
  | unexpected hreached hrest hmarker hterminator =>
      rw [hreached.read_of_none hmarker,
        readTerminator_eq_error_iff.mpr (Or.inr ⟨hterminator, _, _, hrest, rfl⟩), error_bind]
  | mac hreached hterminator hmac =>
      have hmarker := not_startsWith_marker_of_terminator [] (by simpa using hterminator)
      rw [hreached.read_of_none hmarker, readTerminator_eq_ok_iff.mpr hterminator, ok_bind,
        readMac_eq_error_iff.mpr hmac, error_bind]
  | tooLong hreached hterminator hmac hlong =>
      have hmarker := not_startsWith_marker_of_terminator [] (by simpa using hterminator)
      rw [hreached.read_of_none hmarker, readTerminator_eq_ok_iff.mpr hterminator, ok_bind, hmac]
      simp only [ok_bind, checkLength, if_pos hlong, error_bind]

/-- A header that cannot be read fails in one of these ways. -/
theorem readFailure_of_read (h : read limits cursor = .error e) : ReadFailure limits cursor e := by
  rcases bind_eq_error_iff.mp h with hversion | ⟨first, hversion, h⟩
  · rcases bind_eq_error_iff.mp hversion with hline | ⟨⟨line, next⟩, hline, hversion⟩
    · obtain ⟨hcut, rfl⟩ := Cursor.readLine_eq_error_iff.mp hline
      exact .cut hcut
    · by_cases hsame : line = versionLine
      · exact absurd hversion (by simp [hsame])
      · simp only [if_neg hsame, throw_eq_error, Except.error.injEq] at hversion
        obtain rfl := hversion
        exact .version hline hsame
  have hfirst := readVersion_eq_ok_iff.mp hversion
  rcases bind_eq_error_iff.mp h with hstanzas | ⟨⟨stanzas, middle⟩, hstanzas, h⟩
  · obtain ⟨read, middle, hread, hcount, hlimit, hstop⟩ := stop_of_readStanzas hstanzas
    have hreached : Reached limits cursor read middle := ⟨hfirst.append hread, hcount, hlimit⟩
    rcases hstop with hfailure | ⟨stanza, next, hstanza, ⟨hfull, rfl⟩ | ⟨hroom, hlong, rfl⟩⟩
    · exact .stanza hreached hfailure
    · exact .tooMany hreached hstanza hfull
    · exact .stanzaTooLong hreached hstanza hroom hlong
  obtain ⟨read, -, hread, hmarker, hcount, hlimit⟩ := spans_of_readStanzas hstanzas
  have hreached : Reached limits cursor read middle := ⟨hfirst.append hread, hcount, hlimit⟩
  rcases bind_eq_error_iff.mp h with hterminator | ⟨last, hterminator, h⟩
  · rcases readTerminator_eq_error_iff.mp hterminator with
      ⟨hend, rfl⟩ | ⟨hother, found, rest, hrest, rfl⟩
    · exact .ended hreached hend
    · exact .unexpected hreached hrest hmarker hother
  have hlast := readTerminator_eq_ok_iff.mp hterminator
  rcases bind_eq_error_iff.mp h with hmac | ⟨⟨mac, next⟩, hmac, h⟩
  · exact .mac hreached hlast (readMac_eq_error_iff.mp hmac)
  rcases bind_eq_error_iff.mp h with hlength | ⟨⟨⟩, -, h⟩
  · simp only [checkLength] at hlength
    split at hlength
    · rename_i hlong
      obtain rfl := Except.error.inj hlength
      exact .tooLong hreached hlast hmac hlong
    · exact absurd hlength (by simp)
  · exact absurd h (by simp)

/-- Reading a header fails in these ways and in no other. -/
theorem read_eq_error_iff : read limits cursor = .error e ↔ ReadFailure limits cursor e :=
  ⟨readFailure_of_read, ReadFailure.read_eq⟩

/-- The header at the beginning of an input fails in these ways and in no other. -/
theorem parse_eq_error_iff {input : Bytes} :
    parse input limits = .error e ↔ ReadFailure limits (Cursor.start input) e := by
  rw [parse, map_eq_error_iff, read_eq_error_iff]

end AgeFile.Header
