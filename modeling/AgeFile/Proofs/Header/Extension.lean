import AgeFile.Proofs.Header.Failure
import AgeFile.Proofs.Stanza.Extension

/-!
# Headers in a longer input

A reader that is given an input in parts must know which answers may still change. Read
`Unsettled` first: it lists the errors that more bytes can change, those of an input that is cut
off. `exists_append_ne_iff_unsettled` says that these are all of them, so a header that is read and
every other error are final.
-/

namespace AgeFile.Header

/-- The errors of an input that more bytes can change. -/
inductive Unsettled (input : Bytes) : Error → Prop
  /-- The input ends within a line, or behind the stanzas. -/
  | truncated (needed available : Nat) : Unsettled input (.truncated needed available)
  /-- The input ends within the MAC line. -/
  | macNotFound : Unsettled input .macNotFound
  /-- The input ends within the marker or the terminator. -/
  | dash {offset : Nat} {found : UInt8}
      (hdash : input.drop offset = ascii "-" ∨ input.drop offset = ascii "--") :
      Unsettled input (.malformed offset (.stanzaOrTerminator found))

variable {limits : HeaderLimits} {cursor middle last next : Cursor} {stanzas : List Stanza}
  {mac : Mac} {header : Header} {input tail : Bytes} {e : Error}

/-! ## What more bytes leave as it is -/

/-- A position that is reached is reached in a longer input. -/
theorem Reached.extend (h : Reached limits cursor stanzas middle) (tail : Bytes) :
    Reached limits (cursor.extend tail) stanzas (middle.extend tail) :=
  ⟨h.spans.extend tail, h.length_le, h.offset_le⟩

/-- A MAC line that is there and cannot be read fails in the same way in a longer input. -/
theorem MacFailure.extend (h : MacFailure cursor e) (hmac : e ≠ .macNotFound) (tail : Bytes) :
    MacFailure (cursor.extend tail) e := by
  have hrest : ∀ first text last (after : Bytes), cursor.rest = first :: text ++ last :: after →
      (cursor.extend tail).rest = first :: text ++ last :: (after ++ tail) := by
    intro first text last after h
    rw [Cursor.rest_extend, h, List.append_assoc, List.cons_append, List.cons_append,
      List.cons_append]
  cases h with
  | missing _ => exact absurd rfl hmac
  | noSpace htext hparts hfirst => exact .noSpace htext (hrest _ _ _ _ hparts) hfirst
  | noLineFeed htext hparts hlast => exact .noLineFeed htext (hrest _ _ _ _ hparts) hlast
  | fault htext hparts hdecode => exact .fault htext (hrest _ _ _ _ hparts) hdecode

/-- A MAC that is read is read from a longer input. -/
theorem readMac_extend (h : readMac cursor = .ok (mac, next)) (tail : Bytes) :
    readMac (cursor.extend tail) = .ok (mac, next.extend tail) :=
  readMac_eq_ok_iff.mpr ((readMac_eq_ok_iff.mp h).extend tail)

/-- A word that does not stand at a position does not stand there in a longer input, unless the
input ends after its first bytes. -/
theorem not_startsWith_extend {word : Bytes} (h : cursor.startsWith word = false)
    (hends : ∀ count < word.length, cursor.rest ≠ word.take count) (tail : Bytes) :
    (cursor.extend tail).startsWith word = false := by
  rw [Cursor.startsWith_extend, h]
  intro hprefix
  have htake := List.prefix_iff_eq_take.mp hprefix
  by_cases hlength : cursor.rest.length < word.length
  · exact hends _ hlength htake
  · rw [List.take_of_length_le (Nat.le_of_not_lt hlength)] at htake
    rw [Cursor.startsWith, htake] at h
    exact absurd h (by simp)

/-- An error that is settled is the error of every longer input. -/
theorem ReadFailure.extend (h : ReadFailure limits (Cursor.start input) e)
    (hsettled : ¬ Unsettled input e) (tail : Bytes) :
    ReadFailure limits (Cursor.start (input ++ tail)) e := by
  have hcut : ∀ needed available, e ≠ .truncated needed available := by
    rintro needed available rfl
    exact hsettled (.truncated needed available)
  have hmac : e ≠ .macNotFound := by
    rintro rfl
    exact hsettled .macNotFound
  rw [Cursor.start_append]
  cases h with
  | cut _ => exact absurd rfl (hcut _ _)
  | version hline hversion => exact .version (Cursor.readLine_extend hline tail) hversion
  | stanza hreached hstanza => exact .stanza (hreached.extend tail) (hstanza.extend hcut tail)
  | tooMany hreached hstanza hfull =>
      exact .tooMany (hreached.extend tail) (hstanza.extend tail) hfull
  | stanzaTooLong hreached hstanza hroom hlong =>
      exact .stanzaTooLong (hreached.extend tail) (hstanza.extend tail) hroom hlong
  | ended _ _ => exact absurd rfl (hcut _ _)
  | @unexpected stanzas middle found rest hreached hrest hmarker hterminator =>
      -- What is left is neither empty nor one of the two cut words.
      have hdash : middle.rest ≠ ascii "-" ∧ middle.rest ≠ ascii "--" := by
        rw [hreached.isIn.rest_eq]
        exact ⟨fun h => hsettled (.dash (Or.inl h)), fun h => hsettled (.dash (Or.inr h))⟩
      have hnil : middle.rest ≠ [] := by
        rw [hrest]
        exact List.cons_ne_nil _ _
      have hmarker' : (middle.extend tail).startsWith Stanza.marker = false := by
        refine not_startsWith_extend hmarker ?_ tail
        intro count hcount
        match count, hcount with
        | 0, _ => exact hnil
        | 1, _ => exact hdash.1
      have hterminator' : (middle.extend tail).startsWith terminator = false := by
        refine not_startsWith_extend hterminator ?_ tail
        intro count hcount
        match count, hcount with
        | 0, _ => exact hnil
        | 1, _ => exact hdash.1
        | 2, _ => exact hdash.2
      have hrest' : (middle.extend tail).rest = found :: (rest ++ tail) := by
        rw [Cursor.rest_extend, hrest, List.cons_append]
      show ReadFailure limits _ (.malformed (middle.extend tail).offset (.stanzaOrTerminator found))
      exact .unexpected (hreached.extend tail) hrest' hmarker' hterminator'
  | mac hreached hterminator hfailure =>
      exact .mac (hreached.extend tail) (hterminator.extend tail) (hfailure.extend hmac tail)
  | tooLong hreached hterminator hread hlong =>
      exact .tooLong (hreached.extend tail) (hterminator.extend tail) (readMac_extend hread tail)
        hlong

/-- A header that is read is read from every longer input. -/
theorem parse_append_of_ok {offset : Nat} (h : parse input limits = .ok (header, offset))
    (tail : Bytes) : parse (input ++ tail) limits = .ok (header, offset) := by
  obtain ⟨hcount, hlength, hinput, htake⟩ := parse_eq_ok_iff_written.mp h
  refine parse_eq_ok_iff_written.mpr ⟨hcount, hlength, ?_, ?_⟩
  · rw [List.length_append]
    omega
  · rw [List.take_append_of_le_length hinput, htake]

/-! ## What more bytes change -/

/-- A header that is cut off fails in another way after one more byte. -/
theorem ReadFailure.extend_of_truncated {needed available : Nat}
    (h : ReadFailure limits cursor (.truncated needed available)) :
    ∃ tail e, ReadFailure limits (cursor.extend tail) e ∧ e ≠ .truncated needed available := by
  -- A letter ends no line, and it begins neither a stanza nor the terminator.
  have hletter : (0x61 : UInt8) ≠ lineFeed := by decide
  have hlater : Error.truncated (needed + 1) (available + 1) ≠ .truncated needed available := by
    simp
  cases h with
  | cut hcut =>
      obtain ⟨hfeed, hlength⟩ := Stanza.truncated_extend hcut hletter
      exact ⟨[0x61], _, .cut hfeed, by rw [hlength]; exact hlater⟩
  | stanza hreached hstanza =>
      exact ⟨[0x61], _, .stanza (hreached.extend _) (hstanza.extend_of_truncated hletter), hlater⟩
  | @ended stanzas middle hreached hend =>
      have hrest : (middle.extend [0x61]).rest = [0x61] := by
        rw [Cursor.rest_extend, hend, List.nil_append]
      have hmarker : (middle.extend [0x61]).startsWith Stanza.marker = false := by
        rw [Cursor.startsWith, hrest]
        rfl
      have hterminator : (middle.extend [0x61]).startsWith terminator = false := by
        rw [Cursor.startsWith, hrest]
        rfl
      exact ⟨[0x61], _, .unexpected (hreached.extend _) hrest hmarker hterminator, by simp⟩
  | mac _ _ hfailure => cases hfailure

/-- Once there are bytes enough for a MAC line, its absence is not reported. -/
theorem ReadFailure.extend_of_macNotFound (h : ReadFailure limits cursor .macNotFound) :
    ∃ tail, read limits (cursor.extend tail) ≠ .error .macNotFound := by
  cases h with
  | stanza _ hstanza =>
      rcases hstanza.eq_truncated_or_malformed with ⟨_, he⟩ | ⟨_, _, he, -⟩
      · exact absurd he (by simp)
      · exact absurd he (by simp)
  | @mac stanzas middle last _ hreached hterminator hfailure =>
      refine ⟨List.replicate Format.footerLength 0, ?_⟩
      intro herror
      have hspans := hterminator.extend (List.replicate Format.footerLength 0)
      have hmarker := not_startsWith_marker_of_terminator [] (by simpa using hspans)
      rw [(hreached.extend _).read_of_none hmarker, readTerminator_eq_ok_iff.mpr hspans,
        ok_bind] at herror
      rcases bind_eq_error_iff.mp herror with hmac | ⟨⟨mac, next⟩, -, herror⟩
      · cases readMac_eq_error_iff.mp hmac with
        | missing hshort =>
            rw [Cursor.rest_extend, List.length_append, List.length_replicate] at hshort
            omega
      · rcases bind_eq_error_iff.mp herror with hlength | ⟨⟨⟩, -, herror⟩
        · rw [checkLength] at hlength
          split at hlength <;> exact absurd hlength (by simp)
        · exact absurd herror (by simp)

/-- An input that ends within the terminator lacks the MAC once the terminator is complete. -/
theorem ReadFailure.extend_of_dash {offset : Nat} {found : UInt8}
    (h : ReadFailure limits (Cursor.start input) (.malformed offset (.stanzaOrTerminator found)))
    (hdash : input.drop offset = ascii "-" ∨ input.drop offset = ascii "--") :
    ∃ tail, ReadFailure limits (Cursor.start (input ++ tail)) .macNotFound := by
  cases h with
  | stanza _ hstanza =>
      rcases hstanza.eq_truncated_or_malformed with ⟨_, he⟩ | ⟨_, defect, he, hother⟩
      · exact absurd he (by simp)
      · exact absurd (Error.malformed.inj he).2.symm (hother found)
  | @unexpected stanzas middle _ rest hreached hrest hmarker hterminator =>
      rw [← hreached.isIn.rest_eq] at hdash
      obtain ⟨tail, htail⟩ : ∃ tail, middle.rest ++ tail = terminator := by
        rcases hdash with h | h
        · exact ⟨ascii "--", by rw [h]; decide⟩
        · exact ⟨ascii "-", by rw [h]; decide⟩
      have hspans : (middle.extend tail).Spans terminator ((middle.extend tail).skip 3) :=
        Cursor.startsWith_iff_spans.mp (by
          rw [Cursor.startsWith, Cursor.rest_extend, htail]
          decide)
      refine ⟨tail, .mac (hreached.extend tail) hspans (.missing ?_)⟩
      show ((middle.rest ++ tail).drop 3).length < 45
      rw [htail]
      decide
  | mac _ _ hfailure => cases hfailure

/-- More bytes change what is read from an input exactly when the answer is an error that says the
input is cut off: it ends within a line or behind the stanzas, within the MAC line, or within the
marker or the terminator. -/
theorem exists_append_ne_iff_unsettled (input : Bytes) (limits : HeaderLimits) :
    (∃ tail, parse (input ++ tail) limits ≠ parse input limits) ↔
      ∃ e, parse input limits = .error e ∧ Unsettled input e := by
  refine ⟨?_, ?_⟩
  · intro h
    obtain ⟨tail, hne⟩ := h
    cases hparse : parse input limits with
    | ok found =>
        rw [hparse] at hne
        exact absurd (parse_append_of_ok hparse tail) hne
    | error e =>
        rw [hparse] at hne
        refine ⟨e, rfl, ?_⟩
        refine Classical.byContradiction ?_
        intro hsettled
        have hfailure := (parse_eq_error_iff.mp hparse).extend hsettled tail
        exact hne (parse_eq_error_iff.mpr hfailure)
  · intro h
    obtain ⟨e, hparse, hunsettled⟩ := h
    have hfailure := parse_eq_error_iff.mp hparse
    rw [hparse]
    cases hunsettled with
    | truncated needed available =>
        obtain ⟨tail, other, hother, hne⟩ := hfailure.extend_of_truncated
        rw [← Cursor.start_append] at hother
        refine ⟨tail, ?_⟩
        rw [parse_eq_error_iff.mpr hother]
        simpa using hne
    | macNotFound =>
        obtain ⟨tail, hne⟩ := hfailure.extend_of_macNotFound
        refine ⟨tail, ?_⟩
        rw [parse, Ne, map_eq_error_iff]
        exact hne
    | dash hdash =>
        obtain ⟨tail, hother⟩ := hfailure.extend_of_dash hdash
        refine ⟨tail, ?_⟩
        rw [parse_eq_error_iff.mpr hother]
        simp

/-- A header without stanzas, with a dash where the line feed after the MAC belongs. -/
def dashAfterMac : Bytes :=
  versionLine ++ [lineFeed] ++ terminator ++ [space] ++ List.replicate Format.macTextLength 0x41 ++
    ascii "-"

/-- The bytes from the space before the MAC on are refused at the dash, whatever follows. -/
theorem macFailure_dashAfterMac (tail : Bytes) :
    MacFailure ⟨25, dashAfterMac.drop 25 ++ tail⟩ (.malformed 69 (.macLineFeed 0x2d)) :=
  MacFailure.noLineFeed (List.length_replicate (n := Format.macTextLength) (a := 0x41)) rfl
    (by decide)

/-- The dash after a MAC ends the input and is refused for good: no more bytes make it part of a
marker or a terminator. -/
theorem parse_dashAfterMac_append :
    parse dashAfterMac = .error (.malformed 69 (.macLineFeed 0x2d)) ∧
      dashAfterMac.drop 69 = ascii "-" ∧
      ∀ tail, parse (dashAfterMac ++ tail) = parse dashAfterMac := by
  have hparse : ∀ tail,
      parse (dashAfterMac ++ tail) = .error (.malformed 69 (.macLineFeed 0x2d)) := by
    intro tail
    have hreached : Reached {} (Cursor.start (dashAfterMac ++ tail)) []
        ⟨22, dashAfterMac.drop 22 ++ tail⟩ :=
      ⟨⟨rfl, rfl⟩, Nat.zero_le _, fun h => absurd rfl h⟩
    have hterminator : Cursor.Spans ⟨22, dashAfterMac.drop 22 ++ tail⟩ terminator
        ⟨25, dashAfterMac.drop 25 ++ tail⟩ := ⟨rfl, rfl⟩
    exact parse_eq_error_iff.mpr (.mac hreached hterminator (macFailure_dashAfterMac tail))
  have hinput := hparse []
  rw [List.append_nil] at hinput
  refine ⟨hinput, rfl, ?_⟩
  intro tail
  rw [hparse tail, hinput]

end AgeFile.Header
