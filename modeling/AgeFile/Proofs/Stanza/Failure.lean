import AgeFile.Proofs.Stanza.Codec

/-!
# How reading a stanza fails

Read `ReadFailure` first: it lists where reading a stanza can stop, and with which error.
`read_eq_error_iff` says that reading fails in these ways and in no other, so facts about the
errors of a stanza are proved by cases on them. `WordsFailure` does the same for the line of words,
where the first word that is no token is reported, and `LinesFailure` for the lines of a body, where
a failure may come after any number of full lines.
-/

namespace AgeFile.Stanza

/-- Why a word that stands at an offset is no token: it is empty, or one of its bytes is the first
that cannot stand in a token. -/
inductive TokenFailure (offset : Nat) : Bytes → Error → Prop
  /-- The word has no characters. -/
  | empty : TokenFailure offset [] (.malformed offset .emptyToken)
  /-- The bytes before this one can stand in a token. -/
  | byte {before after : Bytes} {found : UInt8} (hbefore : ∀ b ∈ before, isTokenByte b = true)
      (hfound : isTokenByte found = false) :
      TokenFailure offset (before ++ found :: after)
        (.malformed (offset + before.length) (.tokenByte found))

/-- How a line that begins at an offset can fail to be the marker and words. -/
inductive WordsFailure (offset : Nat) (line : Bytes) : Error → Prop
  /-- The marker is not the first of the pieces between spaces. -/
  | marker (hhead : (line.splitOn space).head? ≠ some marker) :
      WordsFailure offset line (.malformed offset .markerWithoutSpace)
  /-- The tokens before a word are followed by it, and it is none. -/
  | token {before : List Token} {word : Bytes} {after : List Bytes} {e : Error}
      (hline : line.splitOn space = Stanza.marker :: (before.map Token.bytes ++ word :: after))
      (hword : TokenFailure (offset + marker.length + 1 + (spaced before).length) word e) :
      WordsFailure offset line e
  /-- Nothing follows the marker. -/
  | missing (hline : line.splitOn space = [Stanza.marker]) :
      WordsFailure offset line (.malformed offset .missingType)

/-- How reading the lines of a body can fail. -/
inductive LinesFailure : Cursor → Error → Prop
  /-- The input ends within a line. -/
  | cut {cursor : Cursor} (hcut : lineFeed ∉ cursor.rest) :
      LinesFailure cursor (.truncated (cursor.rest.length + 1) cursor.rest.length)
  /-- A line has more characters than a full one. -/
  | long {cursor next : Cursor} {line : Bytes} (hline : cursor.readLine = .ok (line, next))
      (hlong : Format.bodyLineLength < line.length) :
      LinesFailure cursor (.malformed cursor.offset (.longBodyLine line.length))
  /-- A line is full, and one of the lines after it fails. -/
  | later {cursor next : Cursor} {line : Bytes} {e : Error}
      (hline : cursor.readLine = .ok (line, next)) (hfull : line.length = Format.bodyLineLength)
      (hlater : LinesFailure next e) : LinesFailure cursor e

/-- How reading a stanza can fail. -/
inductive ReadFailure (cursor : Cursor) : Error → Prop
  /-- The input ends within the line of words. -/
  | cut (hmarker : cursor.startsWith marker = true) (hcut : lineFeed ∉ cursor.rest) :
      ReadFailure cursor (.truncated (cursor.rest.length + 1) cursor.rest.length)
  /-- The line is not the marker and words. -/
  | words {next : Cursor} {line : Bytes} {e : Error} (hmarker : cursor.startsWith marker = true)
      (hline : cursor.readLine = .ok (line, next))
      (hwords : WordsFailure cursor.offset line e) : ReadFailure cursor e
  /-- A line of the body fails. -/
  | lines {next : Cursor} {line : Bytes} {words : Token × List Token} {e : Error}
      (hmarker : cursor.startsWith marker = true) (hline : cursor.readLine = .ok (line, next))
      (hwords : readWords cursor.offset line = .ok words) (hlines : LinesFailure next e) :
      ReadFailure cursor e
  /-- The text of the body is no encoding, which is reported where the body begins. -/
  | body {next last : Cursor} {line text : Bytes} {words : Token × List Token}
      {fault : Base64.Fault} (hmarker : cursor.startsWith marker = true)
      (hline : cursor.readLine = .ok (line, next))
      (hwords : readWords cursor.offset line = .ok words)
      (hlines : readLines next [] = .ok (text, last))
      (hdecode : Base64.decode text = .error fault) :
      ReadFailure cursor (.malformed next.offset (.body fault))

variable {cursor next : Cursor} {done : List Bytes} {e : Error}

/-! ## The line of words -/

variable {offset : Nat} {word line : Bytes} {words : List Bytes} {tokens : List Token}

/-- The first byte that cannot stand in a token is found behind the bytes that can. -/
theorem findIdx?_badByte {before after : Bytes} {found : UInt8}
    (hbefore : ∀ b ∈ before, isTokenByte b = true) (hfound : isTokenByte found = false) :
    (before ++ found :: after).findIdx? (fun b => !isTokenByte b) = some before.length := by
  rw [List.findIdx?_append, List.findIdx?_eq_none_iff.mpr]
  · simp [List.findIdx?_cons, hfound]
  · intro b hb
    simp [hbefore b hb]

/-- A word is no token for one of these reasons and for no other. -/
theorem readToken_eq_error_iff : readToken offset word = .error e ↔ TokenFailure offset word e := by
  refine ⟨?_, ?_⟩
  · intro h
    unfold readToken at h
    split at h
    · rename_i hempty
      obtain rfl := Except.error.inj h
      rw [hempty]
      exact .empty
    · split at h
      · rename_i i hbad
        obtain ⟨hi, hfound, hbefore⟩ := List.findIdx?_eq_some_iff_getElem.mp hbad
        obtain rfl := Except.error.inj h
        rw [Bool.not_eq_eq_eq_not, Bool.not_true] at hfound
        have hword : word = word.take i ++ word[i] :: word.drop (i + 1) := by
          rw [← List.drop_eq_getElem_cons, List.take_append_drop]
        have hlength : (word.take i).length = i := List.length_take_of_le (Nat.le_of_lt hi)
        have hfailure : TokenFailure offset (word.take i ++ word[i] :: word.drop (i + 1)) _ :=
          .byte (fun b hb => ?_) hfound
        · rw [← hword, hlength] at hfailure
          rw [List.getD_eq_getElem?_getD, List.getElem?_eq_getElem hi]
          exact hfailure
        · obtain ⟨j, hj, rfl⟩ := List.mem_iff_getElem.mp hb
          rw [List.getElem_take]
          simpa using hbefore j (by omega)
      · exact absurd h (by simp)
  · intro h
    cases h with
    | empty => rfl
    | @byte before after found hbefore hfound =>
        have hbad := @findIdx?_badByte before after found hbefore hfound
        unfold readToken
        rw [dif_neg (by simp)]
        split
        · rename_i i hindex
          obtain rfl := Option.some.inj (hbad.symm.trans hindex)
          simp
        · rename_i hnone
          exact absurd (hbad.symm.trans hnone) (by simp)

/-- Words are not all tokens when the first that is none is reported at its place. -/
theorem readTokens_eq_error_iff : readTokens offset words tokens = .error e ↔
    ∃ before word after, words = before.map Token.bytes ++ word :: after ∧
      TokenFailure (offset + (spaced before).length) word e := by
  induction words generalizing offset tokens with
  | nil => simp [readTokens]
  | cons word words ih =>
      rw [readTokens]
      cases hword : readToken offset word with
      | error other =>
          simp only [Except.error.injEq]
          refine ⟨?_, ?_⟩
          · intro h
            obtain rfl := h
            exact ⟨[], word, words, rfl, readToken_eq_error_iff.mp hword⟩
          · intro h
            obtain ⟨before, bad, after, hwords, hbad⟩ := h
            cases before with
            | nil =>
                obtain ⟨rfl, -⟩ := List.cons.inj hwords
                exact Except.error.inj (hword.symm.trans (readToken_eq_error_iff.mpr hbad))
            | cons token before =>
                obtain ⟨htoken, -⟩ := List.cons.inj hwords
                have hok : readToken offset word = .ok token := readToken_eq_ok_iff.mpr htoken
                exact absurd (hword.symm.trans hok) (by simp)
      | ok token =>
          obtain rfl := readToken_eq_ok_iff.mp hword
          simp only [ih]
          have hplace : ∀ before, offset + token.bytes.length + 1 + (spaced before).length =
              offset + (spaced (token :: before)).length := by
            intro before
            rw [spaced, spaced, List.flatMap_cons, List.length_append, List.length_cons]
            omega
          refine ⟨?_, ?_⟩
          · intro h
            obtain ⟨before, bad, after, rfl, hbad⟩ := h
            rw [hplace] at hbad
            exact ⟨token :: before, bad, after, rfl, hbad⟩
          · intro h
            obtain ⟨before, bad, after, hwords, hbad⟩ := h
            cases before with
            | nil =>
                obtain ⟨rfl, -⟩ := List.cons.inj hwords
                have herror : readToken offset token.bytes = .error e :=
                  readToken_eq_error_iff.mpr hbad
                exact absurd (hword.symm.trans herror) (by simp)
            | cons other before =>
                obtain ⟨htoken, hrest⟩ := List.cons.inj hwords
                obtain rfl := Token.ext htoken
                rw [← hplace] at hbad
                exact ⟨before, bad, after, hrest, hbad⟩

/-- A line fails to be the marker and words in one of these ways and in no other. -/
theorem readWords_eq_error_iff : readWords offset line = .error e ↔ WordsFailure offset line e := by
  unfold readWords
  refine ⟨?_, ?_⟩
  · intro h
    by_cases hhead : (line.splitOn space).head? = some marker
    · obtain ⟨words, hwords⟩ := List.head?_eq_some_iff.mp hhead
      simp only [hwords, List.head?_cons, ne_eq, not_true_eq_false, if_false, List.tail_cons] at h
      split at h
      · rename_i other htokens
        obtain rfl := Except.error.inj h
        obtain ⟨before, word, after, rfl, hword⟩ := readTokens_eq_error_iff.mp htokens
        exact .token hwords hword
      · rename_i htokens
        obtain rfl := Except.error.inj h
        obtain ⟨read, rfl, hread⟩ := readTokens_eq_ok_iff.mp htokens
        obtain rfl : [] = read := hread
        exact .missing hwords
      · exact absurd h (by simp)
    · simp only [ne_eq, hhead, not_false_eq_true, if_true, Except.error.injEq] at h
      obtain rfl := h
      exact .marker hhead
  · intro h
    cases h with
    | marker hhead => simp only [ne_eq, hhead, not_false_eq_true, if_true]
    | @token before word after e hline hword =>
        have htokens : readTokens (offset + marker.length + 1)
            (before.map Token.bytes ++ word :: after) [] = .error e :=
          readTokens_eq_error_iff.mpr ⟨before, word, after, rfl, hword⟩
        simp only [hline, List.head?_cons, ne_eq, not_true_eq_false, if_false, List.tail_cons,
          htokens]
    | missing hline => simp [hline, readTokens]

/-! ## The lines of a body -/

/-- A failure that is described comes about, whatever lines were read before. -/
theorem LinesFailure.readLines_eq (h : LinesFailure cursor e) :
    readLines cursor done = .error e := by
  induction h generalizing done with
  | cut hcut =>
      rw [readLines_of_readLine_error (Cursor.readLine_eq_error_iff.mpr ⟨hcut, rfl⟩)]
  | long hline hlong => rw [readLines_of_readLine hline, if_pos hlong]
  | later hline hfull _ ih =>
      rw [readLines_of_readLine hline, if_neg (by omega), if_pos hfull, ih]

/-- Body lines that cannot be read fail in one of these ways. -/
theorem linesFailure_of_readLines (h : readLines cursor done = .error e) :
    LinesFailure cursor e := by
  -- Induction on what is left to read: a full line leaves less of it.
  induction hlen : cursor.rest.length using Nat.strongRecOn generalizing cursor done with
  | ind n ih =>
      cases hline : cursor.readLine with
      | error other =>
          rw [readLines_of_readLine_error hline] at h
          obtain rfl := Except.error.inj h
          obtain ⟨hcut, rfl⟩ := Cursor.readLine_eq_error_iff.mp hline
          exact .cut hcut
      | ok found =>
          obtain ⟨line, after⟩ := found
          have hstep := Cursor.length_rest_of_readLine hline
          rw [readLines_of_readLine hline] at h
          split at h
          · rename_i hlong
            obtain rfl := Except.error.inj h
            exact .long hline hlong
          · split at h
            · rename_i hfull
              exact .later hline hfull (ih after.rest.length (by omega) h rfl)
            · exact absurd h (by simp)

/-- Body lines fail in these ways and in no other. -/
theorem readLines_eq_error_iff : readLines cursor done = .error e ↔ LinesFailure cursor e :=
  ⟨linesFailure_of_readLines, LinesFailure.readLines_eq⟩

/-! ## Whole stanzas -/

/-- A failure that is described comes about. -/
theorem ReadFailure.read_eq (h : ReadFailure cursor e) : read cursor = .error e := by
  unfold read
  cases h with
  | cut hmarker hcut =>
      rw [if_pos hmarker, Cursor.readLine_eq_error_iff.mpr ⟨hcut, rfl⟩]
      rfl
  | words hmarker hline hwords =>
      simp only [hmarker, if_true, hline, readWords_eq_error_iff.mpr hwords, ok_bind, error_bind]
  | lines hmarker hline hwords hlines =>
      simp only [hmarker, if_true, hline, hwords, readBody, readLines_eq_error_iff.mpr hlines,
        ok_bind, error_bind]
  | body hmarker hline hwords hlines hdecode =>
      simp only [hmarker, if_true, hline, hwords, readBody, hlines, hdecode, ok_bind, error_bind,
        throw_eq_error]

/-- A stanza that cannot be read fails in one of these ways. -/
theorem readFailure_of_read (h : read cursor = .error e) : ReadFailure cursor e := by
  unfold read at h
  split at h
  · rename_i hmarker
    rcases bind_eq_error_iff.mp h with hline | ⟨⟨line, next⟩, hline, h⟩
    · obtain ⟨hcut, rfl⟩ := Cursor.readLine_eq_error_iff.mp hline
      exact .cut hmarker hcut
    rcases bind_eq_error_iff.mp h with hwords | ⟨words, hwords, h⟩
    · exact .words hmarker hline (readWords_eq_error_iff.mp hwords)
    rcases bind_eq_error_iff.mp h with hbody | ⟨found, -, h⟩
    · rcases bind_eq_error_iff.mp hbody with hlines | ⟨⟨text, last⟩, hlines, hbody⟩
      · exact .lines hmarker hline hwords (readLines_eq_error_iff.mp hlines)
      · cases hdecode : Base64.decode text with
        | error fault =>
            simp only [hdecode, throw_eq_error, Except.error.injEq] at hbody
            obtain rfl := hbody
            exact .body hmarker hline hwords hlines hdecode
        | ok bytes => exact absurd hbody (by simp [hdecode])
    · exact absurd h (by simp)
  · exact absurd h (by simp)

/-- Reading a stanza fails in these ways and in no other. -/
theorem read_eq_error_iff : read cursor = .error e ↔ ReadFailure cursor e :=
  ⟨readFailure_of_read, ReadFailure.read_eq⟩

end AgeFile.Stanza
