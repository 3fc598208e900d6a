import AgeFile.Proofs.Cursor.Checked
import AgeFile.Proofs.Stanza.Failure

/-!
# Reading a stanza with checked accesses

The reader of a stanza once more, on offsets into the whole input: it looks up the byte that cannot
stand in a token, takes the type from the list of words by its index, and reads body lines for as
many rounds as it is given. Read `agrees_readStanza` first: at every position of an input it comes
to the stanza that is read there. `readStanza_eq` says what this means for any offset.
-/

namespace AgeFile.Checked

open Stanza (marker)

/-- Where no byte is found that cannot stand in a token, all of them can. -/
theorem isTokenByte_of_findIdx? {word : Bytes}
    (h : (word.findIdx? fun b => !isTokenByte b) = none) : ∀ b ∈ word, isTokenByte b = true := by
  intro b hb
  simpa using List.findIdx?_eq_none_iff.mp h b hb

/-- Take a word of a stanza line as a token. -/
def readToken (offset : Nat) (word : Bytes) : Checked Token :=
  if hne : word = [] then throw (.malformed offset .emptyToken)
  else
    match hbad : word.findIdx? fun b => !isTokenByte b with
    | some i => do
        let found ← access word[i]?
        throw (.malformed (offset + i) (.tokenByte found))
    | none => pure ⟨word, hne, isTokenByte_of_findIdx? hbad⟩

/-- Take the words of a stanza line as tokens. -/
def readTokens (offset : Nat) : List Bytes → (done : List Token) → Checked (List Token)
  | [], done => pure done.reverse
  | word :: words, done => do
      let token ← readToken offset word
      readTokens (offset + word.length + 1) words (token :: done)

/-- The type and the arguments of a stanza line; the type is the first word. -/
def readWords (offset : Nat) (line : Bytes) : Checked (Token × List Token) :=
  let words := line.splitOn space
  if words.head? ≠ some marker then throw (.malformed offset .markerWithoutSpace)
  else do
    let tokens ← readTokens (offset + marker.length + 1) words.tail []
    if tokens = [] then throw (.malformed offset .missingType)
    else do
      let tag ← access tokens[0]?
      return (tag, tokens.drop 1)

/-- Read the lines of a body, one in each round. -/
def readLines (input : Bytes) : (rounds pos : Nat) → (done : List Bytes) → Checked (Bytes × Nat)
  | 0, _, _ => ExceptT.mk none
  | rounds + 1, pos, done => do
      let (line, next) ← readLine input pos
      if Format.bodyLineLength < line.length then
        throw (.malformed pos (.longBodyLine line.length))
      else if line.length < Format.bodyLineLength then
        return ((line :: done).reverse.flatten, next)
      else readLines input rounds next (line :: done)

/-- The body that begins at an offset, and the offset of its end. -/
def readBody (input : Bytes) (start : Nat) : Checked (Bytes × Nat) := do
  let (text, next) ← readLines input (input.length + 1) start []
  match Base64.decode text with
  | .error fault => throw (.malformed start (.body fault))
  | .ok body => return (body, next)

/-- The stanza at an offset and the offset of its end; none where the marker does not stand. -/
def readStanza (input : Bytes) (cursor : Nat) : Checked (Option (Stanza × Nat)) := do
  let rest ← access (suffix? input cursor)
  if marker.isPrefixOf rest then do
    let (line, next) ← readLine input cursor
    let (tag, args) ← readWords cursor line
    let (body, next) ← readBody input next
    return some (⟨tag, args, body⟩, next)
  else return none

variable {cursor : Cursor} {input line word : Bytes} {offset rounds : Nat} {done : List Bytes}
  {words : List Bytes} {tokens : List Token}

/-! ## The line of words -/

/-- The byte that cannot stand in a token is one of the word. -/
theorem agrees_readToken : Agrees (readToken offset word) (Stanza.readToken offset word) id := by
  cases hread : Stanza.readToken offset word with
  | error e =>
      cases Stanza.readToken_eq_error_iff.mp hread with
      | empty => exact Agrees.throw id _
      | @byte before after found hbefore hfound =>
          have hbad := @Stanza.findIdx?_badByte before after found hbefore hfound
          unfold readToken
          rw [dif_neg (by simp)]
          split
          · rename_i i hindex
            obtain rfl := Option.some.inj (hbad.symm.trans hindex)
            have hget : (before ++ found :: after)[before.length]? = some found := by simp
            rw [access_bind hget]
            exact Agrees.throw id _
          · rename_i hnone
            exact absurd (hbad.symm.trans hnone) (by simp)
  | ok token =>
      obtain rfl := Stanza.readToken_eq_ok_iff.mp hread
      unfold readToken
      rw [dif_neg token.ne_nil]
      split
      · rename_i i hbad
        obtain ⟨hi, hbyte, -⟩ := List.findIdx?_eq_some_iff_getElem.mp hbad
        rw [token.isTokenByte_of_mem _ (List.getElem_mem hi)] at hbyte
        exact absurd hbyte (by simp)
      · exact Agrees.pure id token

/-- Words are taken as tokens in agreement. -/
theorem agrees_readTokens :
    Agrees (readTokens offset words tokens) (Stanza.readTokens offset words tokens) id := by
  induction words generalizing offset tokens with
  | nil => exact Agrees.pure id _
  | cons word words ih =>
      have hword : Agrees (readToken offset word) (Stanza.readToken offset word) id :=
        agrees_readToken
      rw [Agrees] at hword
      rw [readTokens, Stanza.readTokens, hword]
      cases Stanza.readToken offset word with
      | error e => exact Agrees.throw id e
      | ok token => exact ih

/-- There is a first word where there is any. -/
theorem agrees_readWords : Agrees (readWords offset line) (Stanza.readWords offset line) id := by
  unfold readWords Stanza.readWords
  by_cases hhead : (line.splitOn space).head? ≠ some marker
  · simp only [if_pos hhead]
    exact Agrees.throw id _
  · have htokens : Agrees (readTokens (offset + marker.length + 1) (line.splitOn space).tail [])
        (Stanza.readTokens (offset + marker.length + 1) (line.splitOn space).tail []) id :=
      agrees_readTokens
    rw [Agrees] at htokens
    simp only [if_neg hhead, htokens]
    cases Stanza.readTokens (offset + marker.length + 1) (line.splitOn space).tail [] with
    | error e => exact Agrees.throw id e
    | ok tokens =>
        cases tokens with
        | nil => exact Agrees.throw id _
        | cons tag args => exact Agrees.pure id (tag, args)

/-! ## The body -/

/-- As many rounds as there are bytes left to read are more than enough for the lines of a body. -/
theorem agrees_readLines (hin : cursor.IsIn input) (hrounds : cursor.rest.length < rounds) :
    Agrees (readLines input rounds cursor.offset done) (Stanza.readLines cursor done) atOffset := by
  -- Induction on the rounds: a line leaves fewer bytes, so there are still more rounds than bytes.
  induction rounds generalizing cursor done with
  | zero => exact absurd hrounds (Nat.not_lt_zero _)
  | succ rounds ih =>
      have hread := agrees_readLine hin
      rw [Agrees] at hread
      rw [readLines, hread]
      cases hline : cursor.readLine with
      | error e =>
          rw [Stanza.readLines_of_readLine_error hline]
          exact Agrees.throw atOffset e
      | ok found =>
          obtain ⟨line, next⟩ := found
          have hstep := Cursor.length_rest_of_readLine hline
          have hnext : next.IsIn input := hin.readLine hline
          rw [Stanza.readLines_of_readLine hline]
          show Agrees (if Format.bodyLineLength < line.length then _ else _) _ _
          by_cases hlong : Format.bodyLineLength < line.length
          · rw [if_pos hlong, if_pos hlong]
            exact Agrees.throw atOffset _
          · rw [if_neg hlong, if_neg hlong]
            by_cases hshort : line.length < Format.bodyLineLength
            · rw [if_pos hshort, if_neg (by omega)]
              exact Agrees.pure atOffset (_, next)
            · have hafter : next.rest.length < rounds := by omega
              rw [if_neg hshort, if_pos (by omega)]
              exact ih hnext hafter

/-- A body is read in agreement. -/
theorem agrees_readBody (hin : cursor.IsIn input) :
    Agrees (readBody input cursor.offset) (Stanza.readBody cursor) atOffset := by
  have hlength := hin.offset_add
  refine (agrees_readLines hin (by omega)).bind ?_
  intro found _
  obtain ⟨text, next⟩ := found
  dsimp only [atOffset]
  cases Base64.decode text with
  | error fault => exact Agrees.throw atOffset _
  | ok body => exact Agrees.pure atOffset (body, next)

/-! ## Whole stanzas -/

/-- A stanza is read in agreement at every position of the input. -/
theorem agrees_readStanza (hin : cursor.IsIn input) :
    Agrees (readStanza input cursor.offset) (Stanza.read cursor) (Option.map atOffset) := by
  unfold readStanza Stanza.read
  rw [access_bind (suffix?_offset hin)]
  show Agrees (if cursor.startsWith marker = true then _ else _) _ _
  by_cases hmarker : cursor.startsWith marker = true
  · rw [if_pos hmarker, if_pos hmarker]
    refine (agrees_readLine hin).bind ?_
    intro found hline
    obtain ⟨line, next⟩ := found
    refine agrees_readWords.bind ?_
    intro words _
    obtain ⟨tag, args⟩ := words
    refine (agrees_readBody (hin.readLine hline)).bind ?_
    intro found _
    obtain ⟨body, last⟩ := found
    exact Agrees.pure (Option.map atOffset) (some ((⟨tag, args, body⟩ : Stanza), last))
  · rw [if_neg hmarker, if_neg hmarker]
    exact Agrees.pure (Option.map atOffset) none

/-- From any offset the checked reader comes to what is read there: to nothing beyond the end of the
input, and nowhere else. -/
theorem readStanza_eq (input : Bytes) (offset : Nat) :
    readStanza input offset = Stanza.parseAt? input offset := by
  refine eq_map_at? (fun _ => agrees_readStanza) ?_ offset
  intro offset hlt
  rw [readStanza, suffix?_of_lt hlt]
  rfl

/-- A stanza that is read ends at least six bytes behind its beginning, in the input. -/
theorem readStanza_advances {stop : Nat} {stanza : Stanza}
    (h : readStanza input offset = some (.ok (some (stanza, stop)))) :
    offset + 6 ≤ stop ∧ stop ≤ input.length := by
  rw [readStanza_eq] at h
  obtain ⟨cursor, found, hin, rfl, hstanza, hview⟩ := exists_cursor h
  obtain ⟨⟨read, next⟩, rfl, hfound⟩ := Option.map_eq_some_iff.mp hview
  obtain ⟨rfl, rfl⟩ := Prod.mk.inj hfound
  have hspans := Stanza.read_eq_ok_some_iff.mp hstanza
  have hlength := Stanza.six_le_length_encode read
  show cursor.offset + 6 ≤ next.offset ∧ next.offset ≤ input.length
  rw [hspans.2]
  exact ⟨by omega, hspans.2 ▸ (hspans.isIn hin).offset_le⟩

end AgeFile.Checked
