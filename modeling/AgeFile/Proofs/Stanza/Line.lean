import AgeFile.Proofs.Except
import AgeFile.Stanza.Reader

/-!
# The line of words that begins a stanza

Read `readWords_eq_ok_iff` first: a line is taken apart into a type and arguments exactly when it is
the line that is written for them, so no other spacing is accepted.
-/

namespace AgeFile.Stanza

/-- A word is taken as a token exactly when it is the token's bytes. -/
theorem readToken_eq_ok_iff {offset : Nat} {word : Bytes} {token : Token} :
    readToken offset word = .ok token ↔ word = token.bytes := by
  unfold readToken
  refine ⟨?_, ?_⟩
  · intro h
    split at h
    · exact absurd h (by simp)
    · split at h
      · exact absurd h (by simp)
      · exact congrArg Token.bytes (Except.ok.inj h)
  · intro h
    obtain rfl := h
    rw [dif_neg token.ne_nil]
    split
    · rename_i i hbad
      obtain ⟨hi, hbyte, -⟩ := List.findIdx?_eq_some_iff_getElem.mp hbad
      rw [token.isTokenByte_of_mem _ (List.getElem_mem hi)] at hbyte
      exact absurd hbyte (by simp)
    · rfl

/-- Words are taken as tokens exactly when they are the bytes of these tokens, in order. -/
theorem readTokens_eq_ok_iff {offset : Nat} {words : List Bytes} {done tokens : List Token} :
    readTokens offset words done = .ok tokens ↔
      ∃ read, words = read.map Token.bytes ∧ tokens = done.reverse ++ read := by
  induction words generalizing offset done with
  | nil =>
      simp only [readTokens, Except.ok.injEq]
      refine ⟨?_, ?_⟩
      · intro h
        obtain rfl := h
        exact ⟨[], rfl, (List.append_nil _).symm⟩
      · intro h
        obtain ⟨read, hread, rfl⟩ := h
        rw [List.map_eq_nil_iff.mp hread.symm, List.append_nil]
  | cons word words ih =>
      rw [readTokens]
      cases hword : readToken offset word with
      | error e =>
          simp only [reduceCtorEq, false_iff]
          intro h
          obtain ⟨read, hread, -⟩ := h
          cases read with
          | nil => exact absurd hread (by simp)
          | cons token read =>
              have hok : readToken offset word = .ok token :=
                readToken_eq_ok_iff.mpr (List.cons.inj hread).1
              exact absurd (hword.symm.trans hok) (by simp)
      | ok token =>
          obtain rfl := readToken_eq_ok_iff.mp hword
          simp only [ih, List.reverse_cons, List.append_assoc, List.singleton_append]
          refine ⟨?_, ?_⟩
          · intro h
            obtain ⟨read, rfl, rfl⟩ := h
            exact ⟨token :: read, rfl, rfl⟩
          · intro h
            obtain ⟨read, hread, rfl⟩ := h
            cases read with
            | nil => exact absurd hread (by simp)
            | cons other read =>
                obtain ⟨hbytes, hrest⟩ := List.cons.inj hread
                obtain rfl := Token.ext hbytes
                exact ⟨read, hrest, rfl⟩

/-- The bytes of tokens, with a space before each of them. -/
def spaced (tokens : List Token) : Bytes :=
  tokens.flatMap fun token => space :: token.bytes

/-- A space cannot stand in a token. -/
theorem space_notMem_bytes (token : Token) : space ∉ token.bytes := by
  intro hmem
  exact absurd (token.isTokenByte_of_mem _ hmem) (by decide)

/-- A line feed cannot stand in a token. -/
theorem lineFeed_notMem_bytes (token : Token) : lineFeed ∉ token.bytes := by
  intro hmem
  exact absurd (token.isTokenByte_of_mem _ hmem) (by decide)

/-- Words joined by spaces are the first of them and the others with a space before each. -/
theorem intercalate_cons (first : Bytes) (words : List Bytes) :
    [space].intercalate (first :: words) = first ++ words.flatMap fun word => space :: word := by
  induction words generalizing first with
  | nil => simp
  | cons word words ih =>
      rw [List.intercalate_cons_cons, ih, List.flatMap_cons]
      simp

/-- A word and the bytes of tokens joined by spaces are the word and the tokens with a space before
each. -/
theorem intercalate_space (first : Bytes) (tokens : List Token) :
    [space].intercalate (first :: tokens.map Token.bytes) = first ++ spaced tokens := by
  rw [intercalate_cons, List.flatMap_map, spaced]

/-- A word between others, the first of them and tokens before it, with a space before each. -/
theorem intercalate_between (first : Bytes) (before : List Token) (word : Bytes)
    (after : List Bytes) :
    [space].intercalate (first :: (before.map Token.bytes ++ word :: after)) =
      first ++ spaced before ++ space :: word ++ after.flatMap fun word => space :: word := by
  rw [intercalate_cons, List.flatMap_append, List.flatMap_map, List.flatMap_cons, spaced,
    List.append_assoc, List.append_assoc]

/-- A line is split at its spaces into a word and the bytes of tokens exactly when it consists of
them. -/
theorem splitOn_space_eq_iff {line first : Bytes} {tokens : List Token} (hfirst : space ∉ first) :
    line.splitOn space = first :: tokens.map Token.bytes ↔ line = first ++ spaced tokens := by
  rw [← intercalate_space]
  refine ⟨?_, ?_⟩
  · intro h
    rw [← h, List.intercalate_splitOn]
  · intro h
    obtain rfl := h
    refine List.splitOn_intercalate space ?_ (by simp)
    intro word hword
    rcases List.mem_cons.mp hword with rfl | hword
    · exact hfirst
    · obtain ⟨token, -, rfl⟩ := List.mem_map.mp hword
      exact space_notMem_bytes token

/-- A line is taken apart into a type and arguments exactly when it is the marker and, with a space
before each, these words. -/
theorem readWords_eq_ok_iff {offset : Nat} {line : Bytes} {tag : Token} {args : List Token} :
    readWords offset line = .ok (tag, args) ↔ line = marker ++ spaced (tag :: args) := by
  have hmarker : space ∉ marker := by decide
  rw [← splitOn_space_eq_iff hmarker, readWords]
  refine ⟨?_, ?_⟩
  · intro h
    by_cases hhead : (line.splitOn space).head? = some marker
    · obtain ⟨words, hwords⟩ := List.head?_eq_some_iff.mp hhead
      simp only [hwords, List.head?_cons, ne_eq, not_true_eq_false, if_false, List.tail_cons] at h
      split at h
      · exact absurd h (by simp)
      · exact absurd h (by simp)
      · rename_i first others htokens
        simp only [Except.ok.injEq, Prod.mk.injEq] at h
        obtain ⟨rfl, rfl⟩ := h
        obtain ⟨read, hread, htail⟩ := readTokens_eq_ok_iff.mp htokens
        rw [hwords, hread, htail, List.reverse_nil, List.nil_append]
    · simp only [hhead, ne_eq, not_false_eq_true, if_true] at h
      exact absurd h (by simp)
  · intro h
    have htokens : readTokens (offset + marker.length + 1) ((tag :: args).map Token.bytes) [] =
        .ok (tag :: args) := readTokens_eq_ok_iff.mpr ⟨_, rfl, rfl⟩
    simp only [h, List.head?_cons, ne_eq, not_true_eq_false, if_false, List.tail_cons, htokens]

/-- The words of a stanza stand on one line. -/
theorem lineFeed_notMem_words (tokens : List Token) : lineFeed ∉ marker ++ spaced tokens := by
  rw [List.mem_append, not_or]
  refine ⟨by decide, ?_⟩
  intro hmem
  obtain ⟨token, -, hbyte⟩ := List.mem_flatMap.mp hmem
  rcases List.mem_cons.mp hbyte with hspace | hbyte
  · exact absurd hspace (by decide)
  · exact lineFeed_notMem_bytes token hbyte

end AgeFile.Stanza
