import AgeFile.Proofs.Header.Failure
import AgeFile.Proofs.Stanza.Place

/-!
# What a rejected header is told

A header comes from a file that nobody has vouched for, so what the reader says about one that it
rejects must hold for every input. Read `Rejection` first: it lists the errors there are, with the
limits they carry and the places they point at. `rejection_of_parse` says that there are no others.
-/

namespace AgeFile.Header

/-- The errors of reading a header at the beginning of an input. The version line and its line feed
are 22 bytes, and places are reported only behind them. -/
inductive Rejection (input : Bytes) (limits : HeaderLimits) : Error → Prop
  /-- The first line is another one. -/
  | unsupportedVersion (line : String) : Rejection input limits (.unsupportedVersion line)
  /-- The input is too short, or a place of it is wrong. -/
  | placed {e : Error} (hplaced : e.PlacedFrom input 22) : Rejection input limits e
  /-- The header is longer than the limit. -/
  | headerTooLarge : Rejection input limits (.headerTooLarge limits.maxHeaderLength)
  /-- There are more stanzas than the limit. -/
  | tooManyStanzas : Rejection input limits (.tooManyStanzas limits.maxStanzas)
  /-- The input ends before the MAC does. -/
  | macNotFound : Rejection input limits .macNotFound

variable {limits : HeaderLimits} {cursor middle : Cursor} {stanzas : List Stanza} {input : Bytes}
  {e : Error}

/-- Every rejection says that the input is no well-formed header. -/
theorem Rejection.isMalformed (h : Rejection input limits e) : e.isMalformed = true := by
  cases h with
  | unsupportedVersion _ => rfl
  | placed hplaced => cases hplaced <;> rfl
  | headerTooLarge => rfl
  | tooManyStanzas => rfl
  | macNotFound => rfl

/-- A MAC line that cannot be read is refused at one of its bytes, or it is not there. -/
theorem MacFailure.placedFrom (h : MacFailure cursor e) (hin : cursor.IsIn input) :
    e = .macNotFound ∨ e.PlacedFrom input cursor.offset := by
  cases h with
  | missing _ => exact Or.inl rfl
  | noSpace htext hrest _ =>
      refine Or.inr (.of_some rfl (Nat.le_refl _) ?_)
      rw [← Nat.add_zero cursor.offset, ← hin.getElem?_rest, hrest]
      rfl
  | @noLineFeed last text tail htext hrest _ =>
      -- The line feed belongs behind the space and the text.
      have hplace : cursor.offset + Format.footerLength - 1 =
          cursor.offset + (space :: text).length := by
        rw [List.length_cons, htext]
        rfl
      rw [hplace]
      refine Or.inr (.of_some rfl (Nat.le_add_right _ _) ?_)
      rw [← hin.getElem?_rest, hrest, List.getElem?_append_right (Nat.le_refl _),
        Nat.sub_self, List.getElem?_cons_zero]
  | fault htext hrest _ =>
      refine Or.inr (.of_none rfl (by simp) (Nat.le_succ _) ?_)
      have hlength := hin.offset_add
      rw [hrest, List.length_append, List.length_cons, List.length_cons] at hlength
      omega

/-- Every rejection is one of these. -/
theorem ReadFailure.rejection (h : ReadFailure limits (Cursor.start input) e) :
    Rejection input limits e := by
  cases h with
  | cut _ => exact .placed (.truncated (Nat.lt_succ_self _))
  | version _ _ => exact .unsupportedVersion _
  | stanza hreached hstanza =>
      exact .placed ((hstanza.placedFrom hreached.isIn).mono hreached.le_offset)
  | tooMany _ _ _ => exact .tooManyStanzas
  | stanzaTooLong _ _ _ _ => exact .headerTooLarge
  | ended _ _ => exact .placed (.truncated (by decide))
  | unexpected hreached hrest _ _ =>
      -- The byte that is named is the first one left to read.
      refine .placed (.of_some rfl hreached.le_offset ?_)
      rw [← Nat.add_zero (Cursor.offset _), ← hreached.isIn.getElem?_rest, hrest,
        List.getElem?_cons_zero]
  | mac hreached hterminator hmac =>
      rcases hmac.placedFrom (hterminator.isIn hreached.isIn) with rfl | hplaced
      · exact .macNotFound
      · exact .placed (hplaced.mono (Nat.le_trans hreached.le_offset hterminator.offset_le))
  | tooLong _ _ _ _ => exact .headerTooLarge

/-- An input from which no header can be read is rejected with an error that is well-formed: it is
one of those that say so, the limits it carries are those of the caller, and the place it points at
lies in the input, behind the version line, and holds the byte that the text names. -/
theorem rejection_of_parse (h : parse input limits = .error e) :
    Rejection input limits e ∧ e.isMalformed = true := by
  have hrejection := (parse_eq_error_iff.mp h).rejection
  exact ⟨hrejection, hrejection.isMalformed⟩

/-- The beginning of a header whose first stanza has a control character in its type. -/
def controlByteInType : Bytes :=
  versionLine ++ [lineFeed] ++ ascii "-> te" ++ 0x01 :: ascii "st" ++ [lineFeed, lineFeed]

/-- A stanza whose type holds a control character is rejected at that character. -/
theorem rejection_controlByteInType :
    parse controlByteInType = .error (.malformed 27 (.tokenByte 0x01)) ∧
      Rejection controlByteInType {} (.malformed 27 (.tokenByte 0x01)) ∧
      (Error.malformed 27 (.tokenByte 0x01)).isMalformed = true := by
  have hreached : Reached {} (Cursor.start controlByteInType) []
      ⟨22, controlByteInType.drop 22⟩ :=
    ⟨⟨rfl, rfl⟩, Nat.zero_le _, fun h => absurd rfl h⟩
  have hstanza : Stanza.ReadFailure ⟨22, controlByteInType.drop 22⟩
      (.malformed 27 (.tokenByte 0x01)) := Stanza.read_eq_error_iff.mp rfl
  have hparse : parse controlByteInType = .error (.malformed 27 (.tokenByte 0x01)) :=
    parse_eq_error_iff.mpr (.stanza hreached hstanza)
  exact ⟨hparse, rejection_of_parse hparse⟩

end AgeFile.Header
