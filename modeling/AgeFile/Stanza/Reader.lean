import AgeFile.Cursor
import AgeFile.Stanza.Basic

/-!
# Reading a stanza

A stanza is read from a position in an input: its line of words, then body lines up to and including
the first that is not full. Errors name the place in the whole input. `read` answers that there is
no stanza where the marker does not stand, and leaves the position to the caller.
-/

namespace AgeFile.Stanza

/-- Take a word of a stanza line as a token; `offset` is its place in the input. -/
def readToken (offset : Nat) (word : Bytes) : Except Error Token :=
  if hne : word = [] then .error (.malformed offset .emptyToken)
  else
    match hbad : word.findIdx? fun b => !isTokenByte b with
    | some i => .error (.malformed (offset + i) (.tokenByte (word.getD i 0)))
    | none => .ok ⟨word, hne, fun b hb => by
        simpa using List.findIdx?_eq_none_iff.mp hbad b hb⟩

/-- Take the words of a stanza line as tokens, in order up to the first that is none; `offset` is
the place of the first of them, and `done` holds the tokens before them, the last one first. -/
def readTokens (offset : Nat) : List Bytes → (done : List Token) → Except Error (List Token)
  | [], done => .ok done.reverse
  | word :: words, done =>
      match readToken offset word with
      | .error e => .error e
      | .ok token => readTokens (offset + word.length + 1) words (token :: done)

/-- The type and the arguments of a stanza line that begins at `offset`. -/
def readWords (offset : Nat) (line : Bytes) : Except Error (Token × List Token) :=
  let words := line.splitOn space
  if words.head? ≠ some marker then .error (.malformed offset .markerWithoutSpace)
  else
    match readTokens (offset + marker.length + 1) words.tail [] with
    | .error e => .error e
    | .ok [] => .error (.malformed offset .missingType)
    | .ok (tag :: args) => .ok (tag, args)

/-- The text of a body and the position after it. Full lines are followed by another line; a shorter
one is the last. `done` holds the lines before, the last one first. -/
def readLines (cursor : Cursor) (done : List Bytes) : Except Error (Bytes × Cursor) :=
  match h : cursor.readLine with
  | .error e => .error e
  | .ok (line, next) =>
      if Format.bodyLineLength < line.length then
        .error (.malformed cursor.offset (.longBodyLine line.length))
      else if line.length = Format.bodyLineLength then
        have : next.rest.length < cursor.rest.length := by
          have := Cursor.length_rest_of_readLine h
          omega
        readLines next (line :: done)
      else .ok ((line :: done).reverse.flatten, next)
termination_by cursor.rest.length

/-- The body that begins at a position, and the position after it. All lines are taken before their
text is decoded, and text that is no encoding is reported at the body's beginning. -/
def readBody (cursor : Cursor) : Except Error (Bytes × Cursor) := do
  let (text, next) ← readLines cursor []
  match Base64.decode text with
  | .error fault => throw (.malformed cursor.offset (.body fault))
  | .ok body => return (body, next)

/-- The stanza at a position and the position after it; none where the marker does not stand. -/
def read (cursor : Cursor) : Except Error (Option (Stanza × Cursor)) :=
  if cursor.startsWith marker then do
    let (line, next) ← cursor.readLine
    let (tag, args) ← readWords cursor.offset line
    let (body, next) ← readBody next
    return some (⟨tag, args, body⟩, next)
  else return none

/-- The stanza that begins after `offset` bytes of an input and the offset of its end. There is no
answer for an offset beyond the end of the input. -/
def parseAt? (input : Bytes) (offset : Nat) : Option (Except Error (Option (Stanza × Nat))) :=
  (Cursor.at? input offset).map fun cursor =>
    (read cursor).map fun found => found.map fun (stanza, next) => (stanza, next.offset)

/-- Reading body lines leaves less to read. -/
theorem length_rest_of_readLines {cursor next : Cursor} {done : List Bytes} {text : Bytes}
    (h : readLines cursor done = .ok (text, next)) :
    next.rest.length < cursor.rest.length := by
  induction hlen : cursor.rest.length using Nat.strongRecOn generalizing cursor done with
  | ind n ih =>
      rw [readLines] at h
      split at h
      · exact absurd h (by simp)
      · rename_i line after hline
        have hstep := Cursor.length_rest_of_readLine hline
        split at h
        · exact absurd h (by simp)
        · split at h
          · have := ih after.rest.length (by omega) h rfl
            omega
          · simp only [Except.ok.injEq, Prod.mk.injEq] at h
            rw [← h.2]
            omega

/-- Reading a stanza leaves less to read. -/
theorem length_rest_of_read {cursor next : Cursor} {stanza : Stanza}
    (h : read cursor = .ok (some (stanza, next))) :
    next.rest.length < cursor.rest.length := by
  unfold read at h
  split at h
  · cases hline : cursor.readLine with
    | error e => simp [hline, bind, Except.bind] at h
    | ok found =>
        obtain ⟨line, after⟩ := found
        have hstep := Cursor.length_rest_of_readLine hline
        simp only [hline, bind, Except.bind] at h
        cases hwords : readWords cursor.offset line with
        | error e => simp [hwords] at h
        | ok words =>
            simp only [hwords, readBody, bind, Except.bind] at h
            cases hlines : readLines after [] with
            | error e => simp [hlines] at h
            | ok body =>
                have hbody : body.2.rest.length < after.rest.length :=
                  length_rest_of_readLines hlines
                simp only [hlines] at h
                cases hdecode : Base64.decode body.1 with
                | error fault => simp [hdecode, throw, throwThe, MonadExceptOf.throw] at h
                | ok bytes =>
                    simp only [hdecode, pure, Except.pure, Except.ok.injEq, Option.some.injEq,
                      Prod.mk.injEq] at h
                    rw [← h.2]
                    omega
  · simp [pure, Except.pure] at h

end AgeFile.Stanza
