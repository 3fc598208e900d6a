import AgeFile.Proofs.Header.Authentication
import AgeFile.Proofs.Header.Boundary
import AgeFile.Proofs.Header.Limits

/-!
# Which limit a header passes first

A written header can pass both limits. The reader counts a stanza before it measures it, and it
measures each stanza that it counted, and the whole header at the end. Read `parse_encode_limits`
first: it says which of the two limits is reported, from the number of the stanzas and the
boundaries between them.
-/

namespace AgeFile.Header

/-- There are more stanzas than are allowed, and those that are allowed end within the allowed
length. -/
structure Crowded (limits : HeaderLimits) (stanzas : List Stanza) : Prop where
  count_lt : limits.maxStanzas < stanzas.length
  within : ∀ i, 1 ≤ i → i ≤ limits.maxStanzas → boundary stanzas i ≤ limits.maxHeaderLength

/-- A stanza that is allowed ends beyond the allowed length, or a header of `length` bytes does
whose stanzas are all allowed. -/
inductive Overlong (limits : HeaderLimits) (stanzas : List Stanza) (length : Nat) : Prop
  /-- Stanza number `i`, counted from one, ends beyond the allowed length. -/
  | stanza {i : Nat} (hpos : 1 ≤ i) (hcount : i ≤ min stanzas.length limits.maxStanzas)
      (hlong : limits.maxHeaderLength < boundary stanzas i) : Overlong limits stanzas length
  /-- The header ends beyond the allowed length. -/
  | header (hcount : stanzas.length ≤ limits.maxStanzas)
      (hlong : limits.maxHeaderLength < length) : Overlong limits stanzas length

variable {limits : HeaderLimits} {stanzas : List Stanza} {mac : Mac} {tail : Bytes}

/-- A limit is passed in one of the two ways, or the limits allow the header. -/
theorem crowded_or_overlong (limits : HeaderLimits) (stanzas : List Stanza) (length : Nat) :
    Crowded limits stanzas ∨ Overlong limits stanzas length ∨
      stanzas.length ≤ limits.maxStanzas ∧ length ≤ limits.maxHeaderLength := by
  by_cases hcrossed : ∃ i, 1 ≤ i ∧ i ≤ min stanzas.length limits.maxStanzas ∧
      limits.maxHeaderLength < boundary stanzas i
  · obtain ⟨i, hpos, hcount, hlong⟩ := hcrossed
    exact Or.inr (Or.inl (.stanza hpos hcount hlong))
  · rcases Nat.lt_or_ge limits.maxStanzas stanzas.length with hmore | hcount
    · refine Or.inl ⟨hmore, ?_⟩
      intro i hpos hi
      refine Nat.le_of_not_lt ?_
      intro hlong
      exact hcrossed ⟨i, hpos, by omega, hlong⟩
    · rcases Nat.lt_or_ge limits.maxHeaderLength length with hlong | hshort
      · exact Or.inr (Or.inl (.header hcount hlong))
      · exact Or.inr (Or.inr ⟨hcount, hshort⟩)

/-- A header with too many stanzas is refused for their number, whatever follows it. -/
theorem Crowded.parse_eq (h : Crowded limits stanzas) :
    parse (written ⟨stanzas, mac⟩ ++ tail) limits =
      .error (.tooManyStanzas limits.maxStanzas) := by
  have hreached := reached_written mac (Nat.le_refl limits.maxStanzas)
    (fun hpos => h.within _ hpos (Nat.le_refl _)) tail
  rw [closing_of_lt mac h.count_lt, List.append_assoc] at hreached
  refine parse_eq_error_iff.mpr (.tooMany hreached (spans_boundary h.count_lt _) ?_)
  rw [List.length_take_of_le (Nat.le_of_lt h.count_lt)]

/-- A header with a stanza that ends beyond the allowed length is refused for its length at the
first stanza that does. -/
theorem parse_of_crossed {i : Nat} (hpos : 1 ≤ i)
    (hcount : i ≤ min stanzas.length limits.maxStanzas)
    (hlong : limits.maxHeaderLength < boundary stanzas i) :
    parse (written ⟨stanzas, mac⟩ ++ tail) limits =
      .error (.headerTooLarge limits.maxHeaderLength) := by
  obtain ⟨last, hlast, hwithin, hcrossed⟩ := exists_crossing hpos hlong
  have hless : last < stanzas.length := by omega
  have hroom : last < limits.maxStanzas := by omega
  have hreached := reached_written mac (Nat.le_of_lt hroom) hwithin tail
  rw [closing_of_lt mac hless, List.append_assoc] at hreached
  refine parse_eq_error_iff.mpr (.stanzaTooLong hreached (spans_boundary hless _) ?_ hcrossed)
  rwa [List.length_take_of_le (Nat.le_of_lt hless)]

/-- A header that is too long is refused for its length, whatever follows it. -/
theorem Overlong.parse_eq (h : Overlong limits stanzas (written ⟨stanzas, mac⟩).length) :
    parse (written ⟨stanzas, mac⟩ ++ tail) limits =
      .error (.headerTooLarge limits.maxHeaderLength) := by
  cases h with
  | stanza hpos hcount hlong => exact parse_of_crossed hpos hcount hlong
  | header hcount hlong =>
      by_cases hcrossed : 1 ≤ stanzas.length ∧
          limits.maxHeaderLength < boundary stanzas stanzas.length
      · exact parse_of_crossed hcrossed.1 (Nat.le_min.mpr ⟨Nat.le_refl _, hcount⟩) hcrossed.2
      -- All stanzas end within the length, so it is measured once more behind the MAC line.
      · have hreached := reached_written mac hcount
          (fun hpos => Nat.le_of_not_lt fun hlong => hcrossed ⟨hpos, hlong⟩) tail
        rw [closing_length, List.append_assoc] at hreached
        have hmac : readMac ⟨boundary stanzas stanzas.length + 3, encodeFooter mac ++ tail⟩ =
            .ok (mac, ⟨(written ⟨stanzas, mac⟩).length, tail⟩) := by
          refine readMac_eq_ok_iff.mpr ⟨rfl, ?_⟩
          rw [length_written_eq_boundary, length_encodeFooter]
          rfl
        exact parse_eq_error_iff.mpr (.tooLong hreached (spans_terminator _ _) hmac hlong)

/-- Which limit a header passes first. It is refused for the number of its stanzas exactly when
there are more than are allowed, and those that are allowed end within the allowed length. It is
refused for its length exactly when one of the stanzas that are allowed ends beyond the allowed
length, or the whole header does and its stanzas are not too many. Otherwise it is read. What
follows the header plays no part. -/
theorem parse_encode_limits {fileKey : FileKey} (hlive : fileKey.destroyed = false)
    (stanzas : List Stanza) (tail : Bytes) (limits : HeaderLimits) :
    ∃ header bytes, encode stanzas fileKey = .ok (header, bytes) ∧ header.stanzas = stanzas ∧
      (parse (bytes ++ tail) limits = .error (.tooManyStanzas limits.maxStanzas) ↔
        Crowded limits stanzas) ∧
      (parse (bytes ++ tail) limits = .error (.headerTooLarge limits.maxHeaderLength) ↔
        Overlong limits stanzas bytes.length) ∧
      (¬ Crowded limits stanzas → ¬ Overlong limits stanzas bytes.length →
        parse (bytes ++ tail) limits = .ok (header, bytes.length)) := by
  refine ⟨_, _, encode_of_live hlive stanzas, rfl, ?_⟩
  generalize expectedMac fileKey (coveredBytes stanzas) = mac
  have hcases := crowded_or_overlong limits stanzas (written ⟨stanzas, mac⟩).length
  have hread : stanzas.length ≤ limits.maxStanzas ∧
      (written ⟨stanzas, mac⟩).length ≤ limits.maxHeaderLength →
      parse (written ⟨stanzas, mac⟩ ++ tail) limits =
        .ok (⟨stanzas, mac⟩, (written ⟨stanzas, mac⟩).length) := fun h =>
    parse_written_append h.1 h.2 tail
  refine ⟨⟨?_, Crowded.parse_eq⟩, ⟨?_, Overlong.parse_eq⟩, ?_⟩
  · intro herror
    rcases hcases with h | h | h
    · exact h
    · exact absurd (herror.symm.trans h.parse_eq) (by simp)
    · exact absurd (herror.symm.trans (hread h)) (by simp)
  · intro herror
    rcases hcases with h | h | h
    · exact absurd (herror.symm.trans h.parse_eq) (by simp)
    · exact h
    · exact absurd (herror.symm.trans (hread h)) (by simp)
  · intro hcrowded hlong
    exact hread ((hcases.resolve_left hcrowded).resolve_left hlong)

/-- Two stanzas of six bytes each. -/
def twoStanzas : List Stanza :=
  [Stanza.shortest, Stanza.shortest]

/-- Where one stanza and 28 bytes are allowed, the second stanza is one too many. Where one byte
less is allowed, the first one is too long already. -/
theorem parse_encode_twoStanzas :
    ∃ header bytes, encode twoStanzas (Key.ofFixed (FixedBytes.zero _)) = .ok (header, bytes) ∧
      parse (bytes ++ [0xff]) ⟨28, 1⟩ = .error (.tooManyStanzas 1) ∧
      parse (bytes ++ [0xff]) ⟨27, 1⟩ = .error (.headerTooLarge 27) := by
  have hcrowded : Crowded ⟨28, 1⟩ twoStanzas := by
    refine ⟨by decide, ?_⟩
    intro i hpos hi
    obtain rfl : i = 1 := Nat.le_antisymm hi hpos
    exact Nat.le_refl 28
  obtain ⟨header, bytes, hencode, -, hcount, -, -⟩ := parse_encode_limits
    (rfl : (Key.ofFixed (FixedBytes.zero _) : FileKey).destroyed = false) twoStanzas [0xff] ⟨28, 1⟩
  obtain ⟨other, otherBytes, hother, -, -, hlength, -⟩ := parse_encode_limits
    (rfl : (Key.ofFixed (FixedBytes.zero _) : FileKey).destroyed = false) twoStanzas [0xff] ⟨27, 1⟩
  obtain ⟨rfl, rfl⟩ := Prod.mk.inj (Except.ok.inj (hencode.symm.trans hother))
  have hlong : Overlong ⟨27, 1⟩ twoStanzas bytes.length :=
    .stanza (Nat.le_refl 1) (by decide) (Nat.lt_succ_self 27)
  exact ⟨header, bytes, hencode, hcount.mpr hcrowded, hlength.mpr hlong⟩

end AgeFile.Header
