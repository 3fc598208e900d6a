import AgeFile.Proofs.Header.Authentication
import AgeFile.Proofs.Header.Boundary
import AgeFile.Proofs.Header.Extension
import AgeFile.Proofs.Header.Limits
import AgeFile.Proofs.Stanza.Truncation

/-!
# Headers that are cut off

No proper beginning of a written header is read, and the error says where it ends. Read `CutFailure`
first: it lists the places to cut a header, each with its error. `exists_cutFailure` says that there
are no others, and `parse_take_encode` that reading fails as listed.
-/

namespace AgeFile.Header

/-- How reading a header fails that is cut off, given what is left of it. -/
inductive CutFailure (stanzas : List Stanza) (cut : Bytes) : Error → Prop
  /-- It ends at a boundary. -/
  | between {i : Nat} (hi : i ≤ stanzas.length) (hcut : cut.length = boundary stanzas i) :
      CutFailure stanzas cut (.truncated 3 0)
  /-- It ends one byte behind a boundary. -/
  | dash {i : Nat} (hi : i ≤ stanzas.length) (hcut : cut.length = boundary stanzas i + 1) :
      CutFailure stanzas cut (.malformed (boundary stanzas i) (.stanzaOrTerminator 0x2d))
  /-- It ends two bytes behind the last boundary. -/
  | dashes (hcut : cut.length = boundary stanzas stanzas.length + 2) :
      CutFailure stanzas cut
        (.malformed (boundary stanzas stanzas.length) (.stanzaOrTerminator 0x2d))
  /-- It ends behind the terminator. -/
  | mac (hcut : boundary stanzas stanzas.length + terminator.length ≤ cut.length) :
      CutFailure stanzas cut .macNotFound
  /-- It ends anywhere else, which is within a line or behind one of several lines. -/
  | line (hother : ∀ i ≤ stanzas.length,
        cut.length ≠ boundary stanzas i ∧ cut.length ≠ boundary stanzas i + 1)
      (hcut : cut.length < boundary stanzas stanzas.length) :
      CutFailure stanzas cut (.truncated ((Stanza.unfinishedLine cut).length + 1)
        (Stanza.unfinishedLine cut).length)

variable {limits : HeaderLimits} {stanzas : List Stanza} {mac : Mac} {i n : Nat} {e : Error}

/-- What is left of a header that is cut off behind a boundary. -/
theorem take_written_of_le (mac : Mac) (h : boundary stanzas i ≤ n) :
    (written ⟨stanzas, mac⟩).take n =
      opening stanzas i ++ (closing stanzas mac i).take (n - boundary stanzas i) := by
  rw [written_eq_opening stanzas mac i, List.take_append, List.take_of_length_le h]
  rfl

/-- Reading a header that is cut off comes to the boundaries before its end. -/
theorem reached_of_cut (mac : Mac) (hcount : i ≤ limits.maxStanzas)
    (hlength : boundary stanzas i ≤ limits.maxHeaderLength) (h : boundary stanzas i ≤ n) :
    Reached limits (Cursor.start ((written ⟨stanzas, mac⟩).take n)) (stanzas.take i)
      ⟨boundary stanzas i, (closing stanzas mac i).take (n - boundary stanzas i)⟩ := by
  rw [take_written_of_le mac h]
  exact reached_boundary hcount (fun _ => hlength) _

/-- A stanza and the terminator begin with the same byte. -/
theorem exists_closing_eq (mac : Mac) (h : i ≤ stanzas.length) :
    ∃ rest, closing stanzas mac i = 0x2d :: rest := by
  rcases Nat.lt_or_eq_of_le h with hlt | rfl
  · rw [closing_of_lt mac hlt]
    exact ⟨_, rfl⟩
  · rw [closing_length]
    exact ⟨_, rfl⟩

/-- What stands before a boundary does not follow the last line feed. -/
theorem unfinishedLine_opening_append (stanzas : List Stanza) (i : Nat) (rest : Bytes) :
    Stanza.unfinishedLine (opening stanzas i ++ rest) = Stanza.unfinishedLine rest := by
  rw [opening, List.append_assoc, List.append_assoc, List.singleton_append,
    Stanza.unfinishedLine_append, Stanza.unfinishedLine_stanzas_append]

/-! ## Every place to cut -/

/-- A header that is cut off within its first line is short of the line feed. -/
theorem parse_of_cut_version (mac : Mac) (h : n < 22) :
    parse ((written ⟨stanzas, mac⟩).take n) limits =
      .error (.truncated
        ((Stanza.unfinishedLine ((written ⟨stanzas, mac⟩).take n)).length + 1)
        (Stanza.unfinishedLine ((written ⟨stanzas, mac⟩).take n)).length) := by
  have htake : (written ⟨stanzas, mac⟩).take n = versionLine.take n := by
    rw [written_eq, List.append_assoc]
    exact List.take_append_of_le_length (Nat.le_of_lt_succ h)
  have hnone : lineFeed ∉ versionLine.take n := fun hmem =>
    absurd (List.mem_of_mem_take hmem) (by decide)
  rw [htake, (Stanza.lines_of_notMem hnone).2]
  exact parse_eq_error_iff.mpr (.cut hnone)

/-- A header that is cut off between two boundaries, behind the marker, is short of one byte behind
its last line feed. -/
theorem parse_of_cut_stanza (mac : Mac) (hcount : i < limits.maxStanzas)
    (hlength : boundary stanzas i ≤ limits.maxHeaderLength) (hi : i < stanzas.length)
    (hmarker : boundary stanzas i + 2 ≤ n) (hend : n < boundary stanzas (i + 1)) :
    parse ((written ⟨stanzas, mac⟩).take n) limits =
      .error (.truncated
        ((Stanza.unfinishedLine ((written ⟨stanzas, mac⟩).take n)).length + 1)
        (Stanza.unfinishedLine ((written ⟨stanzas, mac⟩).take n)).length) := by
  have hle : boundary stanzas i ≤ n := by omega
  have hless : n - boundary stanzas i < stanzas[i].encode.length := by
    rw [boundary_succ hi] at hend
    omega
  have htake : (closing stanzas mac i).take (n - boundary stanzas i) =
      stanzas[i].encode.take (n - boundary stanzas i) := by
    rw [closing_of_lt mac hi, List.take_append_of_le_length (Nat.le_of_lt hless)]
  have hreached := reached_of_cut mac (Nat.le_of_lt hcount) hlength hle
  rw [htake] at hreached
  have hline : Stanza.unfinishedLine ((written ⟨stanzas, mac⟩).take n) =
      Stanza.unfinishedLine (stanzas[i].encode.take (n - boundary stanzas i)) := by
    rw [take_written_of_le mac hle, unfinishedLine_opening_append, htake]
  have htail : stanzas[i].encode.drop (n - boundary stanzas i) ≠ [] := fun hnil =>
    absurd (List.drop_eq_nil_iff.mp hnil) (Nat.not_le_of_lt hless)
  have hlong : 2 ≤ (stanzas[i].encode.take (n - boundary stanzas i)).length := by
    rw [List.length_take_of_le (Nat.le_of_lt hless)]
    omega
  have hread : Stanza.read ⟨boundary stanzas i, stanzas[i].encode.take (n - boundary stanzas i)⟩ =
      _ := Stanza.read_of_cut (List.take_append_drop _ _) htail hlong
  rw [hline]
  exact parse_eq_error_iff.mpr (.stanza hreached (Stanza.read_eq_error_iff.mp hread))

/-- A header that is cut off at a boundary lacks the next stanza or the terminator. -/
theorem parse_of_cut_boundary (mac : Mac) (hcount : i ≤ limits.maxStanzas)
    (hlength : boundary stanzas i ≤ limits.maxHeaderLength) :
    parse ((written ⟨stanzas, mac⟩).take (boundary stanzas i)) limits =
      .error (.truncated 3 0) := by
  have hreached := reached_of_cut mac hcount hlength (Nat.le_refl _)
  rw [Nat.sub_self, List.take_zero] at hreached
  exact parse_eq_error_iff.mpr (.ended hreached rfl)

/-- A dash or two behind a boundary, with nothing behind them, are neither a stanza nor the
terminator. -/
theorem parse_of_cut_dashes (mac : Mac) (hcount : i ≤ limits.maxStanzas)
    (hlength : boundary stanzas i ≤ limits.maxHeaderLength) (hn : boundary stanzas i ≤ n)
    (hdashes : (closing stanzas mac i).take (n - boundary stanzas i) = ascii "-" ∨
      (closing stanzas mac i).take (n - boundary stanzas i) = ascii "--") :
    parse ((written ⟨stanzas, mac⟩).take n) limits =
      .error (.malformed (boundary stanzas i) (.stanzaOrTerminator 0x2d)) := by
  have hreached := reached_of_cut mac hcount hlength hn
  rcases hdashes with hdash | hdash
  · rw [hdash] at hreached
    exact parse_eq_error_iff.mpr (.unexpected hreached rfl rfl rfl)
  · rw [hdash] at hreached
    exact parse_eq_error_iff.mpr (.unexpected hreached rfl rfl rfl)

/-- A header that is cut off behind the terminator lacks the MAC. -/
theorem parse_of_cut_mac (mac : Mac) (hcount : stanzas.length ≤ limits.maxStanzas)
    (hlength : boundary stanzas stanzas.length ≤ limits.maxHeaderLength)
    (hn : boundary stanzas stanzas.length + terminator.length ≤ n)
    (hend : n < (written ⟨stanzas, mac⟩).length) :
    parse ((written ⟨stanzas, mac⟩).take n) limits = .error .macNotFound := by
  have hdashes : terminator.length = 3 := rfl
  have hfooter : Format.footerLength = 45 := rfl
  rw [length_written_eq_boundary] at hend
  have htake : (closing stanzas mac stanzas.length).take (n - boundary stanzas stanzas.length) =
      terminator ++ (encodeFooter mac).take (n - boundary stanzas stanzas.length - 3) := by
    rw [closing_length, List.take_append, List.take_of_length_le (by omega), hdashes]
  have hreached := reached_of_cut mac hcount hlength (by omega : _ ≤ n)
  rw [htake] at hreached
  refine parse_eq_error_iff.mpr (.mac hreached (spans_terminator _ _) (.missing ?_))
  refine Nat.lt_of_le_of_lt (List.length_take_le _ _) ?_
  omega

/-! ## The classification -/

/-- Every place to cut a header has its error. -/
theorem exists_cutFailure (stanzas : List Stanza) (cut : Bytes) :
    ∃ e, CutFailure stanzas cut e := by
  have hdashes : terminator.length = 3 := rfl
  by_cases hbehind : boundary stanzas stanzas.length + 2 ≤ cut.length
  · rcases Nat.lt_or_eq_of_le hbehind with hlt | heq
    · exact ⟨_, .mac (by omega)⟩
    · exact ⟨_, .dashes heq.symm⟩
  · by_cases hboundary : ∃ i ≤ stanzas.length,
        cut.length = boundary stanzas i ∨ cut.length = boundary stanzas i + 1
    · obtain ⟨i, hi, hcut | hcut⟩ := hboundary
      · exact ⟨_, .between hi hcut⟩
      · exact ⟨_, .dash hi hcut⟩
    · have hother : ∀ i ≤ stanzas.length,
          cut.length ≠ boundary stanzas i ∧ cut.length ≠ boundary stanzas i + 1 :=
        fun i hi => ⟨fun h => hboundary ⟨i, hi, Or.inl h⟩, fun h => hboundary ⟨i, hi, Or.inr h⟩⟩
      have hlast := hother stanzas.length (Nat.le_refl _)
      exact ⟨_, .line hother (by omega)⟩

/-- A header that the limits allow fails where it is cut off. -/
theorem CutFailure.parse_eq (hcount : stanzas.length ≤ limits.maxStanzas)
    (hlength : (written ⟨stanzas, mac⟩).length ≤ limits.maxHeaderLength)
    (hend : n < (written ⟨stanzas, mac⟩).length)
    (h : CutFailure stanzas ((written ⟨stanzas, mac⟩).take n) e) :
    parse ((written ⟨stanzas, mac⟩).take n) limits = .error e := by
  have hcut : ((written ⟨stanzas, mac⟩).take n).length = n :=
    List.length_take_of_le (Nat.le_of_lt hend)
  have hwithin : ∀ i ≤ stanzas.length, boundary stanzas i ≤ limits.maxHeaderLength := by
    intro i hi
    have hmono := boundary_mono stanzas hi
    rw [length_written_eq_boundary] at hlength
    omega
  cases h with
  | between hi hn =>
      obtain rfl := hcut.symm.trans hn
      exact parse_of_cut_boundary mac (by omega) (hwithin _ hi)
  | dash hi hn =>
      obtain rfl := hcut.symm.trans hn
      obtain ⟨rest, hrest⟩ := exists_closing_eq mac hi
      refine parse_of_cut_dashes mac (by omega) (hwithin _ hi) (by omega) (Or.inl ?_)
      rw [hrest, Nat.add_sub_cancel_left]
      rfl
  | dashes hn =>
      obtain rfl := hcut.symm.trans hn
      refine parse_of_cut_dashes mac hcount (hwithin _ (Nat.le_refl _)) (by omega) (Or.inr ?_)
      rw [closing_length, Nat.add_sub_cancel_left]
      rfl
  | mac hn =>
      rw [hcut] at hn
      exact parse_of_cut_mac mac hcount (hwithin _ (Nat.le_refl _)) hn hend
  | line hother hn =>
      rw [hcut] at hother hn
      rcases Nat.lt_or_ge n 22 with hversion | hversion
      · exact parse_of_cut_version mac hversion
      · have hzero := boundary_zero stanzas
        have hpos : 1 ≤ stanzas.length := by
          refine Nat.pos_of_ne_zero ?_
          intro hnone
          rw [hnone] at hn
          omega
        obtain ⟨last, hlast, hbefore, hafter⟩ := exists_crossing hpos hn
        have hle : boundary stanzas last ≤ n := by
          rcases Nat.eq_zero_or_pos last with rfl | hlastPos
          · omega
          · exact hbefore hlastPos
        have hplaces := hother last (by omega)
        exact parse_of_cut_stanza mac (by omega) (hwithin last (by omega)) hlast (by omega) hafter

/-- No proper beginning of a written header is read, whatever the limits. -/
theorem exists_parse_take_eq_error (header : Header) (hend : n < header.written.length)
    (limits : HeaderLimits) : ∃ e, parse (header.written.take n) limits = .error e := by
  cases hparse : parse (header.written.take n) limits with
  | error e => exact ⟨e, rfl⟩
  | ok found =>
      obtain ⟨other, offset⟩ := found
      have hwhole := parse_append_of_ok hparse (header.written.drop n)
      rw [List.take_append_drop, ← List.append_nil header.written] at hwhole
      have hoffset : offset = header.written.length := by
        rcases parse_written_append_cases header [] limits with h | h | h
        · exact (Prod.mk.inj (Except.ok.inj (hwhole.symm.trans h))).2
        · exact absurd (hwhole.symm.trans h) (by simp)
        · exact absurd (hwhole.symm.trans h) (by simp)
      obtain ⟨-, -, hinput, -⟩ := parse_eq_ok_iff_written.mp hparse
      rw [List.length_take_of_le (Nat.le_of_lt hend)] at hinput
      omega

/-- A header that is cut off is never read. Under limits that allow the whole header, the error is
the one of the place where it is cut off. -/
theorem parse_take_encode {fileKey : FileKey} (hlive : fileKey.destroyed = false)
    (stanzas : List Stanza) :
    ∃ header bytes, encode stanzas fileKey = .ok (header, bytes) ∧
      (∀ n < bytes.length, ∀ limits, ∃ e, parse (bytes.take n) limits = .error e) ∧
      ∀ n < bytes.length, ∀ limits, parse bytes limits = .ok (header, bytes.length) →
        ∀ e, parse (bytes.take n) limits = .error e ↔ CutFailure stanzas (bytes.take n) e := by
  refine ⟨_, _, encode_of_live hlive stanzas,
    fun n hend limits => exists_parse_take_eq_error _ hend limits, ?_⟩
  generalize expectedMac fileKey (coveredBytes stanzas) = mac
  intro n hend limits hadmits e
  obtain ⟨hcount, hlength, -, -⟩ := parse_eq_ok_iff_written.mp hadmits
  refine ⟨?_, CutFailure.parse_eq hcount hlength hend⟩
  intro herror
  obtain ⟨other, hother⟩ := exists_cutFailure stanzas ((written ⟨stanzas, mac⟩).take n)
  have hparse := hother.parse_eq hcount hlength hend
  obtain rfl := Except.error.inj (herror.symm.trans hparse)
  exact hother

/-- One stanza of six bytes. -/
def oneStanza : List Stanza :=
  [Stanza.shortest]

/-- A header with one stanza is cut off behind the first line of the stanza, behind a dash of the
terminator and before the last byte. -/
theorem parse_take_encode_oneStanza :
    ∃ header bytes, encode oneStanza (Key.ofFixed (FixedBytes.zero _)) = .ok (header, bytes) ∧
      parse (bytes.take 27) = .error (.truncated 1 0) ∧
      parse (bytes.take 29) = .error (.malformed 28 (.stanzaOrTerminator 0x2d)) ∧
      parse (bytes.take 75) = .error .macNotFound := by
  have hlive : (Key.ofFixed (FixedBytes.zero _) : FileKey).destroyed = false := rfl
  obtain ⟨header, bytes, hencode, -, hcut⟩ := parse_take_encode hlive oneStanza
  obtain ⟨mac, rfl, rfl⟩ : ∃ mac, header = ⟨oneStanza, mac⟩ ∧ bytes = written ⟨oneStanza, mac⟩ :=
    ⟨_, Prod.mk.inj (Except.ok.inj (hencode.symm.trans (encode_of_live hlive oneStanza)))⟩
  have hlength : (written ⟨oneStanza, mac⟩).length = 76 := length_written_eq_boundary oneStanza mac
  have hadmits : parse (written ⟨oneStanza, mac⟩) {} =
      .ok (⟨oneStanza, mac⟩, (written ⟨oneStanza, mac⟩).length) := by
    refine parse_eq_ok_iff_written.mpr ⟨Nat.succ_le_succ (Nat.zero_le _), ?_, Nat.le_refl _,
      List.take_length⟩
    rw [hlength]
    decide
  have htake : ∀ n < 76, ((written ⟨oneStanza, mac⟩).take n).length = n :=
    fun n hn => List.length_take_of_le (by omega)
  have hline : Stanza.unfinishedLine ((written ⟨oneStanza, mac⟩).take 27) = [] := by
    rw [take_written_of_le mac (i := 0) (by decide), unfinishedLine_opening_append]
    rfl
  have hother : ∀ i ≤ oneStanza.length, ((written ⟨oneStanza, mac⟩).take 27).length ≠
      boundary oneStanza i ∧ ((written ⟨oneStanza, mac⟩).take 27).length ≠
        boundary oneStanza i + 1 := by
    rw [htake 27 (by decide)]
    decide
  refine ⟨_, _, hencode, ?_, ?_, ?_⟩
  · refine (hcut 27 (by omega) {} hadmits _).mpr ?_
    have hfailure := CutFailure.line hother (by rw [htake 27 (by decide)]; decide)
    rwa [hline] at hfailure
  · exact (hcut 29 (by omega) {} hadmits _).mpr
      (.dash (i := 1) (Nat.le_refl 1) (htake 29 (by decide)))
  · exact (hcut 75 (by omega) {} hadmits _).mpr (.mac (by rw [htake 75 (by decide)]; decide))

end AgeFile.Header
