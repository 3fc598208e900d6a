import AgeFile.Proofs.Error.Wording
import AgeFile.Proofs.Header.Failure

/-!
# What untrusted bytes do to the text of an error

A header comes from a file that nobody has vouched for, and the text of an error may end up on a
terminal or in a log. Read `untrusted_contained` first: whatever is given to the readers of a
header, of a stanza and of a MAC line, and to the building of a stanza, the text of the error shows
no control character, and what it quotes of its input stands in a quotation that cannot be left and
that tells different inputs apart.
-/

namespace AgeFile

/-! ## Stanzas -/

namespace Stanza

variable {cursor : Cursor} {offset : Nat} {word line : Bytes} {tag text : String}
  {args : List String} {body : Bytes} {e : Error}

/-- A word that is no token is refused in words and numbers. -/
theorem TokenFailure.numeric (h : TokenFailure offset word e) : e.Numeric := by
  cases h with
  | empty => exact .malformed (by simp)
  | byte _ _ => exact .malformed (by simp)

/-- A line of words is refused in words and numbers. -/
theorem WordsFailure.numeric (h : WordsFailure offset line e) : e.Numeric := by
  cases h with
  | marker _ => exact .malformed (by simp)
  | token _ hword => exact hword.numeric
  | missing _ => exact .malformed (by simp)

/-- The lines of a body are refused in words and numbers. -/
theorem LinesFailure.numeric (h : LinesFailure cursor e) : e.Numeric := by
  induction h with
  | cut _ => exact .truncated
  | long _ _ => exact .malformed (by simp)
  | later _ _ _ ih => exact ih

/-- A stanza is refused in words and numbers. -/
theorem ReadFailure.numeric (h : ReadFailure cursor e) : e.Numeric := by
  cases h with
  | cut _ _ => exact .truncated
  | words _ _ hwords => exact hwords.numeric
  | lines _ _ _ hlines => exact hlines.numeric
  | body _ _ _ _ _ => exact .malformed (by simp)

/-- A text that is no argument is quoted. -/
theorem argument_eq_error (h : argument text = .error e) : e = .invalidStanza (.argument text) := by
  unfold argument at h
  split at h
  · exact absurd h (by simp)
  · exact (Except.error.inj h).symm

/-- A stanza that cannot be built is refused with its type or one of its arguments. -/
theorem quotes_of_create (h : create tag args body = .error e) :
    ∃ text, e.Quotes text ∧ (text = tag ∨ text ∈ args) := by
  unfold create at h
  split at h
  · obtain rfl := Except.error.inj h
    exact ⟨tag, .tag tag, Or.inl rfl⟩
  · rcases bind_eq_error_iff.mp h with hargs | ⟨tokens, -, h⟩
    · obtain ⟨text, htext, hargument⟩ := exists_of_mapM_eq_error hargs
      obtain rfl := argument_eq_error hargument
      exact ⟨text, .argument text, Or.inr htext⟩
    · exact absurd h (by simp)

end Stanza

/-! ## Headers -/

namespace Header

variable {cursor : Cursor} {limits : HeaderLimits} {e : Error}

/-- A MAC line is refused in words and numbers. -/
theorem MacFailure.numeric (h : MacFailure cursor e) : e.Numeric := by
  cases h with
  | missing _ => exact .macNotFound
  | noSpace _ _ _ => exact .malformed (by simp)
  | noLineFeed _ _ _ => exact .malformed (by simp)
  | fault _ _ _ => exact .malformed (by simp)

/-- A header is refused in words and numbers, or its first line is quoted. -/
theorem ReadFailure.numeric_or_version (h : ReadFailure limits cursor e) :
    e.Numeric ∨ ∃ line next, cursor.readLine = .ok (line, next) ∧
      e = .unsupportedVersion (Text.readLossy line) := by
  cases h with
  | cut _ => exact Or.inl .truncated
  | version hline _ => exact Or.inr ⟨_, _, hline, rfl⟩
  | stanza _ hstanza => exact Or.inl hstanza.numeric
  | tooMany _ _ _ => exact Or.inl .tooManyStanzas
  | stanzaTooLong _ _ _ _ => exact Or.inl .headerTooLarge
  | ended _ _ => exact Or.inl .truncated
  | unexpected _ _ _ _ => exact Or.inl (.malformed (by simp))
  | mac _ _ hmac => exact Or.inl hmac.numeric
  | tooLong _ _ _ _ => exact Or.inl .headerTooLarge

end Header

/-- From an offset of an input, a reader fails as it does from a position. -/
theorem exists_cursor_of_error {α β : Type} {reader : Cursor → Except Error α} {view : α → β}
    {input : Bytes} {offset : Nat} {e : Error}
    (h : (Cursor.at? input offset).map (fun cursor => (reader cursor).map view) =
      some (.error e)) : ∃ cursor, reader cursor = .error e := by
  obtain ⟨cursor, -, hread⟩ := Option.map_eq_some_iff.mp h
  exact ⟨cursor, map_eq_error_iff.mp hread⟩

/-- Whatever bytes a header, a stanza or a MAC line is read from, and whatever texts a stanza is
built from, the text of the error contains what it quotes: it holds no control, and in a quotation
every mark and every backslash is escaped. The readers refuse in words and numbers, except that a
first line which is no version line is quoted as text; a stanza that cannot be built is refused with
its type or one of its arguments in a quotation. Errors that quote different texts have different
texts. -/
theorem untrusted_contained :
    (∀ input limits e, Header.parse input limits = .error e → e.Contained ∧
      (e.Numeric ∨ ∃ line rest, input = line ++ lineFeed :: rest ∧ lineFeed ∉ line ∧
        e = .unsupportedVersion (Text.readLossy line))) ∧
    (∀ input offset e, Stanza.parseAt? input offset = some (.error e) →
      e.Contained ∧ e.Numeric) ∧
    (∀ input offset e, Header.parseMacAt? input offset = some (.error e) →
      e.Contained ∧ e.Numeric) ∧
    (∀ tag args body e, Stanza.create tag args body = .error e →
      e.Contained ∧ ∃ text, e.Quotes text ∧ (text = tag ∨ text ∈ args)) ∧
    (∀ (e other : Error) (text otherText : String), e.Quotes text → other.Quotes otherText →
      text ≠ otherText → e.message ≠ other.message) := by
  refine ⟨?_, ?_, ?_, ?_, fun e other text otherText h hother => h.message_ne hother⟩
  · intro input limits e h
    rcases (Header.parse_eq_error_iff.mp h).numeric_or_version with
      hnumeric | ⟨line, next, hline, rfl⟩
    · exact ⟨hnumeric.contained, Or.inl hnumeric⟩
    · obtain ⟨hfeed, hrest, -⟩ := Cursor.readLine_eq_ok_iff.mp hline
      exact ⟨(Error.Quotes.version _).contained, Or.inr ⟨line, next.rest, hrest, hfeed, rfl⟩⟩
  · intro input offset e h
    obtain ⟨cursor, hread⟩ := exists_cursor_of_error h
    have hnumeric := (Stanza.read_eq_error_iff.mp hread).numeric
    exact ⟨hnumeric.contained, hnumeric⟩
  · intro input offset e h
    obtain ⟨cursor, hread⟩ := exists_cursor_of_error h
    have hnumeric := (Header.readMac_eq_error_iff.mp hread).numeric
    exact ⟨hnumeric.contained, hnumeric⟩
  · intro tag args body e h
    obtain ⟨text, hquotes, htext⟩ := Stanza.quotes_of_create h
    exact ⟨hquotes.contained, text, hquotes, htext⟩

/-- A first line that clears a terminal and ends a quotation. -/
def hostileLine : Bytes :=
  ascii "\x1b[2J\"\\" ++ [0xc2, 0x85, 0xff, lineFeed]

/-- The first line is shown without a control, and its mark and its backslash do not end the
quotation; a byte that is no text is shown as the replacement character. -/
theorem untrusted_contained_hostileLine :
    Header.parse hostileLine = .error (.unsupportedVersion "\x1b[2J\"\\\u0085\ufffd") ∧
      (Error.unsupportedVersion "\x1b[2J\"\\\u0085\ufffd").message =
        "unsupported header version: \"\\u\x7b1b\x7d[2J\\\"\\\\\\u\x7b85\x7d\ufffd\"" ∧
      (Error.unsupportedVersion "\x1b[2J\"\\\u0085\ufffd").Contained := by
  have hparse : Header.parse hostileLine =
      .error (.unsupportedVersion "\x1b[2J\"\\\u0085\ufffd") := rfl
  exact ⟨hparse, by decide +kernel, (untrusted_contained.1 _ _ _ hparse).1⟩

end AgeFile
