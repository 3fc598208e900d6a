import AgeFile.Proofs.Header.Failure
import AgeFile.Proofs.Stanza.Extension

/-!
# Tighter limits

Tightening the limits of the reader can only cut it short. Read `ReadFailure.widen` first: a failure
comes about within wider limits too, unless it is that of a limit. `parse_of_tighter` draws from it
that two limits lead to the same answer or the tighter one is reported, and says what a header must
begin with for a limit to be reported at all.
-/

namespace AgeFile.Header

variable {limits wider : HeaderLimits} {cursor middle : Cursor} {stanzas : List Stanza}
  {input : Bytes} {e : Error}

/-- A position that is reached is reached within wider limits. -/
theorem Reached.widen (h : Reached limits cursor stanzas middle)
    (hlength : limits.maxHeaderLength ≤ wider.maxHeaderLength)
    (hcount : limits.maxStanzas ≤ wider.maxStanzas) : Reached wider cursor stanzas middle :=
  ⟨h.spans, Nat.le_trans h.length_le hcount, fun hne => Nat.le_trans (h.offset_le hne) hlength⟩

/-- A failure comes about within wider limits, or it is that of a limit. -/
theorem ReadFailure.widen (h : ReadFailure limits cursor e)
    (hlength : limits.maxHeaderLength ≤ wider.maxHeaderLength)
    (hcount : limits.maxStanzas ≤ wider.maxStanzas) :
    ReadFailure wider cursor e ∨ e = .headerTooLarge limits.maxHeaderLength ∨
      e = .tooManyStanzas limits.maxStanzas := by
  cases h with
  | cut hcut => exact Or.inl (.cut hcut)
  | version hline hversion => exact Or.inl (.version hline hversion)
  | stanza hreached hstanza => exact Or.inl (.stanza (hreached.widen hlength hcount) hstanza)
  | tooMany _ _ _ => exact Or.inr (Or.inr rfl)
  | stanzaTooLong _ _ _ _ => exact Or.inr (Or.inl rfl)
  | ended hreached hend => exact Or.inl (.ended (hreached.widen hlength hcount) hend)
  | unexpected hreached hrest hmarker hterminator =>
      exact Or.inl (.unexpected (hreached.widen hlength hcount) hrest hmarker hterminator)
  | mac hreached hterminator hmac =>
      exact Or.inl (.mac (hreached.widen hlength hcount) hterminator hmac)
  | tooLong _ _ _ _ => exact Or.inr (Or.inl rfl)

/-- A header that is read within limits is read within wider ones. -/
theorem parse_widen {header : Header} {offset : Nat}
    (h : parse input limits = .ok (header, offset))
    (hlength : limits.maxHeaderLength ≤ wider.maxHeaderLength)
    (hcount : limits.maxStanzas ≤ wider.maxStanzas) :
    parse input wider = .ok (header, offset) := by
  obtain ⟨hstanzas, hoffset, hinput, htake⟩ := parse_eq_ok_iff_written.mp h
  exact parse_eq_ok_iff_written.mpr
    ⟨Nat.le_trans hstanzas hcount, Nat.le_trans hoffset hlength, hinput, htake⟩

/-! ## What a limit is reported of -/

/-- A faulty stanza is not refused for its size or number. -/
theorem not_limit_of_stanza (h : Stanza.ReadFailure cursor e) :
    (∀ length, e ≠ .headerTooLarge length) ∧ ∀ count, e ≠ .tooManyStanzas count := by
  rcases h.eq_truncated_or_malformed with ⟨available, rfl⟩ | ⟨place, defect, rfl, -⟩
  · exact ⟨by simp, by simp⟩
  · exact ⟨by simp, by simp⟩

/-- Too many stanzas are reported where the stanzas that are allowed and one more stand. -/
theorem ReadFailure.exists_of_tooManyStanzas {count : Nat}
    (h : ReadFailure limits cursor (.tooManyStanzas count)) :
    count = limits.maxStanzas ∧ ∃ (stanzas : List Stanza) (next : Cursor),
      stanzas.length = limits.maxStanzas + 1 ∧
        cursor.Spans (versionLine ++ [lineFeed] ++ stanzas.flatMap Stanza.encode) next := by
  cases h with
  | stanza _ hstanza => exact absurd rfl ((not_limit_of_stanza hstanza).2 count)
  | @tooMany stanzas middle next stanza hreached hstanza hfull =>
      refine ⟨rfl, stanzas ++ [stanza], next, ?_, ?_⟩
      · rw [List.length_append, hfull, List.length_singleton]
      · rw [List.flatMap_append, List.flatMap_singleton, ← List.append_assoc]
        exact hreached.spans.append hstanza
  | mac _ _ hmac => cases hmac

/-- Excessive length is reported where a stanza, or the whole header, ends beyond what is
allowed. -/
theorem ReadFailure.exists_of_headerTooLarge {length : Nat}
    (h : ReadFailure limits cursor (.headerTooLarge length)) :
    length = limits.maxHeaderLength ∧ ∃ (stanzas : List Stanza) (next : Cursor),
      limits.maxHeaderLength < next.offset ∧
      (stanzas ≠ [] ∧
          cursor.Spans (versionLine ++ [lineFeed] ++ stanzas.flatMap Stanza.encode) next ∨
        ∃ mac, cursor.Spans (written ⟨stanzas, mac⟩) next) := by
  cases h with
  | stanza _ hstanza => exact absurd rfl ((not_limit_of_stanza hstanza).1 length)
  | @stanzaTooLong stanzas middle next stanza hreached hstanza _ hlong =>
      refine ⟨rfl, stanzas ++ [stanza], next, hlong, Or.inl ⟨by simp, ?_⟩⟩
      rw [List.flatMap_append, List.flatMap_singleton, ← List.append_assoc]
      exact hreached.spans.append hstanza
  | mac _ _ hmac => cases hmac
  | @tooLong stanzas middle last next mac hreached hterminator hmac hlong =>
      refine ⟨rfl, stanzas, next, hlong, Or.inr ⟨mac, ?_⟩⟩
      exact (hreached.spans.append hterminator).append (readMac_eq_ok_iff.mp hmac)

/-- Within tighter limits an input is read with the same answer, a header or an error, or one of the
tighter limits is reported. A limit is reported only of an input that passes it: one that begins
with the version line and more stanzas in their written forms than are allowed, or with the version
line and stanzas, or a whole header, that end beyond the length that is allowed. -/
theorem parse_of_tighter (input : Bytes) (limits wider : HeaderLimits)
    (hlength : limits.maxHeaderLength ≤ wider.maxHeaderLength)
    (hcount : limits.maxStanzas ≤ wider.maxStanzas) :
    (parse input limits = parse input wider ∨
      parse input limits = .error (.headerTooLarge limits.maxHeaderLength) ∨
      parse input limits = .error (.tooManyStanzas limits.maxStanzas)) ∧
    (∀ count, parse input limits = .error (.tooManyStanzas count) →
      count = limits.maxStanzas ∧ ∃ stanzas : List Stanza,
        stanzas.length = limits.maxStanzas + 1 ∧
        versionLine ++ [lineFeed] ++ stanzas.flatMap Stanza.encode <+: input) ∧
    ∀ length, parse input limits = .error (.headerTooLarge length) →
      length = limits.maxHeaderLength ∧ ∃ (stanzas : List Stanza) (bytes : Bytes),
        bytes <+: input ∧ limits.maxHeaderLength < bytes.length ∧
        (stanzas ≠ [] ∧ bytes = versionLine ++ [lineFeed] ++ stanzas.flatMap Stanza.encode ∨
          ∃ mac, bytes = coveredBytes stanzas ++ encodeFooter mac) := by
  refine ⟨?_, ?_, ?_⟩
  · cases hparse : parse input limits with
    | ok found => exact Or.inl (parse_widen hparse hlength hcount).symm
    | error e =>
        rcases (parse_eq_error_iff.mp hparse).widen hlength hcount with h | rfl | rfl
        · exact Or.inl (parse_eq_error_iff.mpr h).symm
        · exact Or.inr (Or.inl rfl)
        · exact Or.inr (Or.inr rfl)
  · intro count h
    obtain ⟨rfl, stanzas, next, hstanzas, hspans⟩ :=
      (parse_eq_error_iff.mp h).exists_of_tooManyStanzas
    exact ⟨rfl, stanzas, hstanzas, _, hspans.1.symm⟩
  · intro length h
    obtain ⟨rfl, stanzas, next, hlong, hspans⟩ :=
      (parse_eq_error_iff.mp h).exists_of_headerTooLarge
    rcases hspans with ⟨hne, hspans⟩ | ⟨mac, hspans⟩
    · rw [hspans.2, show (Cursor.start input).offset = 0 from rfl, Nat.zero_add] at hlong
      exact ⟨rfl, stanzas, _, ⟨_, hspans.1.symm⟩, hlong, Or.inl ⟨hne, rfl⟩⟩
    · rw [hspans.2, show (Cursor.start input).offset = 0 from rfl, Nat.zero_add] at hlong
      exact ⟨rfl, stanzas, _, ⟨_, hspans.1.symm⟩, hlong, Or.inr ⟨mac, rfl⟩⟩

/-- The beginning of a header with one stanza, which ends at the 28th byte. -/
def endsBehindStanza : Bytes :=
  versionLine ++ [lineFeed] ++ ascii "-> a" ++ [lineFeed, lineFeed]

/-- A stanza that ends one byte beyond the allowed length is refused for its length. Where that
byte is allowed, the end of the input is reported. -/
theorem parse_endsBehindStanza :
    27 ≤ 28 ∧ 1 ≤ 1 ∧ parse endsBehindStanza ⟨28, 1⟩ = .error (.truncated 3 0) ∧
      parse endsBehindStanza ⟨27, 1⟩ = .error (.headerTooLarge 27) ∧
      ∃ (stanzas : List Stanza) (bytes : Bytes), bytes <+: endsBehindStanza ∧ 27 < bytes.length ∧
        (stanzas ≠ [] ∧ bytes = versionLine ++ [lineFeed] ++ stanzas.flatMap Stanza.encode ∨
          ∃ mac, bytes = coveredBytes stanzas ++ encodeFooter mac) := by
  have hstart : Reached ⟨27, 1⟩ (Cursor.start endsBehindStanza) [] ⟨22, endsBehindStanza.drop 22⟩ :=
    ⟨⟨rfl, rfl⟩, Nat.zero_le _, fun h => absurd rfl h⟩
  have hstanza : Cursor.Spans ⟨22, endsBehindStanza.drop 22⟩ Stanza.shortest.encode ⟨28, []⟩ :=
    ⟨rfl, rfl⟩
  have hend : Reached ⟨28, 1⟩ (Cursor.start endsBehindStanza) [Stanza.shortest] ⟨28, []⟩ :=
    ⟨⟨rfl, rfl⟩, Nat.le_refl 1, fun _ => Nat.le_refl 28⟩
  have hlong : parse endsBehindStanza ⟨27, 1⟩ = .error (.headerTooLarge 27) :=
    parse_eq_error_iff.mpr (.stanzaTooLong hstart hstanza (by decide) (by decide))
  have htighter := parse_of_tighter endsBehindStanza ⟨27, 1⟩ ⟨28, 1⟩ (by decide) (by decide)
  exact ⟨by decide, by decide, parse_eq_error_iff.mpr (.ended hend rfl), hlong,
    (htighter.2.2 27 hlong).2⟩

end AgeFile.Header
