import AgeFile.Proofs.Header.Failure

/-!
# The places between the stanzas of a header

A written header falls into parts at the places where one stanza ends and the next one, or the
terminator, begins. `boundary stanzas count` is the offset of the place behind the first `count`
stanzas: `opening` is what stands before it, and `closing` what stands behind it
(`written_eq_opening`). Read `reached_boundary` first: a reader that is given the opening comes to
the boundary, if the limits allow it.
-/

namespace AgeFile.Header

/-- The beginning of a header: the version line and its first `count` stanzas. -/
def opening (stanzas : List Stanza) (count : Nat) : Bytes :=
  versionLine ++ [lineFeed] ++ (stanzas.take count).flatMap Stanza.encode

/-- The offset behind the version line and the first `count` stanzas of a header. -/
def boundary (stanzas : List Stanza) (count : Nat) : Nat :=
  (opening stanzas count).length

/-- The end of a header: the stanzas behind the first `count`, the terminator and the MAC line. -/
def closing (stanzas : List Stanza) (mac : Mac) (count : Nat) : Bytes :=
  (stanzas.drop count).flatMap Stanza.encode ++ (terminator ++ encodeFooter mac)

variable {limits : HeaderLimits} {stanzas : List Stanza} {mac : Mac} {count other length : Nat}
  {rest : Bytes}

/-! ## Offsets -/

/-- The first stanza begins behind the version line. -/
theorem boundary_zero (stanzas : List Stanza) : boundary stanzas 0 = 22 :=
  rfl

/-- A stanza comes behind the stanzas before it. -/
theorem opening_succ (h : count < stanzas.length) :
    opening stanzas (count + 1) = opening stanzas count ++ stanzas[count].encode := by
  rw [opening, opening, List.take_succ_eq_append_getElem h, List.flatMap_append,
    List.flatMap_singleton, ← List.append_assoc]

/-- A stanza ends as many bytes behind its beginning as are written for it. -/
theorem boundary_succ (h : count < stanzas.length) :
    boundary stanzas (count + 1) = boundary stanzas count + stanzas[count].encode.length := by
  rw [boundary, opening_succ h, List.length_append, boundary]

/-- What stands before a boundary stands before the later ones. -/
theorem opening_prefix_of_le (h : count ≤ other) :
    opening stanzas count <+: opening stanzas other := by
  refine (List.prefix_append_right_inj _).mpr ?_
  obtain ⟨rest, hrest⟩ := List.take_prefix_take_left h (l := stanzas)
  rw [← hrest, List.flatMap_append]
  exact List.prefix_append _ _

/-- The boundaries follow each other in the order of the stanzas. -/
theorem boundary_mono (stanzas : List Stanza) (h : count ≤ other) :
    boundary stanzas count ≤ boundary stanzas other :=
  (opening_prefix_of_le h).length_le

/-- Where the stanzas pass an offset, one of them is the first to do so. -/
theorem exists_crossing (hpos : 1 ≤ count) (h : length < boundary stanzas count) :
    ∃ last < count, (1 ≤ last → boundary stanzas last ≤ length) ∧
      length < boundary stanzas (last + 1) := by
  induction count with
  | zero => exact absurd hpos (by omega)
  | succ count ih =>
      by_cases hbefore : 1 ≤ count ∧ length < boundary stanzas count
      · obtain ⟨last, hlast, hwithin, hcrossed⟩ := ih hbefore.1 hbefore.2
        exact ⟨last, by omega, hwithin, hcrossed⟩
      · exact ⟨count, by omega, by omega, h⟩

/-! ## The two parts of a header -/

/-- A header is written in two parts around every boundary. -/
theorem written_eq_opening (stanzas : List Stanza) (mac : Mac) (count : Nat) :
    written ⟨stanzas, mac⟩ = opening stanzas count ++ closing stanzas mac count := by
  have hstanzas := List.take_append_drop count stanzas
  rw [written_eq, opening, closing, List.append_assoc (versionLine ++ [lineFeed]),
    ← List.append_assoc ((stanzas.take count).flatMap Stanza.encode), ← List.flatMap_append,
    hstanzas]

/-- Behind a boundary that is not the last one the next stanza is written. -/
theorem closing_of_lt (mac : Mac) (h : count < stanzas.length) :
    closing stanzas mac count = stanzas[count].encode ++ closing stanzas mac (count + 1) := by
  rw [closing, closing, List.drop_eq_getElem_cons h, List.flatMap_cons, List.append_assoc]

/-- Behind the last boundary the terminator and the MAC line are written. -/
theorem closing_length (stanzas : List Stanza) (mac : Mac) :
    closing stanzas mac stanzas.length = terminator ++ encodeFooter mac := by
  rw [closing, List.drop_length, List.flatMap_nil, List.nil_append]

/-- A header ends 48 bytes behind its last stanza. -/
theorem length_written_eq_boundary (stanzas : List Stanza) (mac : Mac) :
    (written ⟨stanzas, mac⟩).length = boundary stanzas stanzas.length + 48 := by
  rw [written_eq_opening stanzas mac stanzas.length, closing_length, List.length_append,
    List.length_append, length_encodeFooter]
  rfl

/-! ## Reading up to a boundary -/

/-- Reading an input that begins as a written header comes to a boundary, if the limits allow the
stanzas before it. -/
theorem reached_boundary (hcount : count ≤ limits.maxStanzas)
    (hlength : 1 ≤ count → boundary stanzas count ≤ limits.maxHeaderLength) (rest : Bytes) :
    Reached limits (Cursor.start (opening stanzas count ++ rest)) (stanzas.take count)
      ⟨boundary stanzas count, rest⟩ := by
  refine ⟨⟨rfl, (Nat.zero_add _).symm⟩, ?_, ?_⟩
  · exact Nat.le_trans (List.length_take_le _ _) hcount
  · intro hne
    refine hlength (Nat.pos_of_ne_zero ?_)
    rintro rfl
    exact hne rfl

/-- Reading a written header comes to a boundary, if the limits allow the stanzas before it. -/
theorem reached_written (mac : Mac) (hcount : count ≤ limits.maxStanzas)
    (hlength : 1 ≤ count → boundary stanzas count ≤ limits.maxHeaderLength) (tail : Bytes) :
    Reached limits (Cursor.start (written ⟨stanzas, mac⟩ ++ tail)) (stanzas.take count)
      ⟨boundary stanzas count, closing stanzas mac count ++ tail⟩ := by
  rw [written_eq_opening stanzas mac count, List.append_assoc]
  exact reached_boundary hcount hlength _

/-- The next stanza stands between two boundaries. -/
theorem spans_boundary (h : count < stanzas.length) (rest : Bytes) :
    Cursor.Spans ⟨boundary stanzas count, stanzas[count].encode ++ rest⟩ stanzas[count].encode
      ⟨boundary stanzas (count + 1), rest⟩ :=
  ⟨rfl, boundary_succ h⟩

/-- The MAC line comes three bytes behind the beginning of the terminator. -/
theorem spans_terminator (offset : Nat) (rest : Bytes) :
    Cursor.Spans ⟨offset, terminator ++ rest⟩ terminator ⟨offset + 3, rest⟩ :=
  ⟨rfl, rfl⟩

end AgeFile.Header
