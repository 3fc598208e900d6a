import AgeFile.Proofs.Stanza.Body
import AgeFile.Proofs.Stanza.Line

/-!
# Reading a stanza and writing one

Read `read_eq_ok_some_iff` first: a stanza is read at a position exactly when its written form
stands there. Since written forms have no tail that could be taken away or added, the position after
the stanza is fixed too, and what follows it plays no part. `create_eq_ok_iff` says which stanzas
there are: those whose type and arguments are tokens.
-/

namespace AgeFile.Stanza

variable {cursor next : Cursor} {stanza : Stanza}

/-- A written stanza is the marker, its words, a line feed, and the wrapped body. -/
theorem encode_eq (stanza : Stanza) :
    stanza.encode =
      marker ++ spaced (stanza.tag :: stanza.args) ++ [lineFeed] ++ encodeBody stanza.body := rfl

/-- A stanza takes at least six bytes: the marker, a space, a type of one character, and two line
feeds. -/
theorem six_le_length_encode (stanza : Stanza) : 6 ≤ stanza.encode.length := by
  have htype : 0 < stanza.tag.bytes.length := List.length_pos_iff.mpr stanza.tag.ne_nil
  have hline : Format.bodyLineLength = 64 := rfl
  rw [length_encode, wordsLength, List.foldr_cons, hline]
  omega

/-- A stanza with a type of one character and nothing else. -/
def shortest : Stanza :=
  ⟨⟨ascii "a", by decide, List.all_eq_true.mp (by decide)⟩, [], []⟩

example : shortest.encode.length = 6 := rfl

/-- A written stanza begins with the marker. -/
theorem startsWith_marker_of_spans (h : cursor.Spans stanza.encode next) :
    cursor.startsWith marker = true := by
  rw [encode_eq, List.append_assoc, List.append_assoc] at h
  obtain ⟨middle, hmarker, -⟩ := Cursor.spans_append_iff.mp h
  exact hmarker.startsWith

/-- A stanza is read at a position exactly when its written form stands there. -/
theorem read_eq_ok_some_iff :
    read cursor = .ok (some (stanza, next)) ↔ cursor.Spans stanza.encode next := by
  refine ⟨?_, ?_⟩
  · intro h
    unfold read at h
    split at h
    · obtain ⟨⟨line, after⟩, hline, h⟩ := bind_eq_ok_iff.mp h
      obtain ⟨⟨tag, args⟩, hwords, h⟩ := bind_eq_ok_iff.mp h
      obtain ⟨⟨body, last⟩, hbody, h⟩ := bind_eq_ok_iff.mp h
      simp only [pure_eq_ok, Except.ok.injEq, Option.some.injEq, Prod.mk.injEq] at h
      obtain ⟨rfl, rfl⟩ := h
      obtain ⟨-, hspans⟩ := Cursor.readLine_eq_ok_iff_spans.mp hline
      rw [readWords_eq_ok_iff.mp hwords] at hspans
      exact hspans.append (readBody_eq_ok_iff.mp hbody)
    · exact absurd h (by simp)
  · intro h
    obtain ⟨middle, hspans, hbody⟩ := Cursor.spans_append_iff.mp (encode_eq stanza ▸ h)
    have hline : cursor.readLine = .ok (marker ++ spaced (stanza.tag :: stanza.args), middle) :=
      Cursor.readLine_eq_ok_iff_spans.mpr ⟨lineFeed_notMem_words _, hspans⟩
    have hwords : readWords cursor.offset (marker ++ spaced (stanza.tag :: stanza.args)) =
        .ok (stanza.tag, stanza.args) := readWords_eq_ok_iff.mpr rfl
    simp only [read, startsWith_marker_of_spans h, if_true, hline, hwords,
      readBody_eq_ok_iff.mpr hbody, ok_bind]
    rfl

/-- There is no stanza exactly where the marker does not stand. -/
theorem read_eq_ok_none_iff : read cursor = .ok none ↔ cursor.startsWith marker = false := by
  unfold read
  cases hmarker : cursor.startsWith marker with
  | false => simp
  | true =>
      simp only [if_true, reduceCtorEq, iff_false]
      intro h
      obtain ⟨⟨line, after⟩, -, h⟩ := bind_eq_ok_iff.mp h
      obtain ⟨⟨tag, args⟩, -, h⟩ := bind_eq_ok_iff.mp h
      obtain ⟨⟨body, last⟩, -, h⟩ := bind_eq_ok_iff.mp h
      exact absurd h (by simp)

/-- A text is taken as an argument exactly when it is the argument's text. -/
theorem argument_eq_ok_iff {text : String} {token : Token} :
    argument text = .ok token ↔ token.text = text := by
  rw [argument, ← Token.ofString?_eq_some_iff]
  cases Token.ofString? text with
  | none => simp
  | some other => simp

/-- Texts are taken as arguments exactly when they are the texts of these arguments, in order. -/
theorem mapM_argument_eq_ok_iff {texts : List String} {tokens : List Token} :
    texts.mapM argument = .ok tokens ↔ tokens.map Token.text = texts :=
  mapM_eq_ok_iff fun _ _ => argument_eq_ok_iff

/-- A stanza is built exactly from the texts of its type and arguments and from its body. -/
theorem create_eq_ok_iff {tag : String} {args : List String} {body : Bytes} :
    create tag args body = .ok stanza ↔
      stanza.tag.text = tag ∧ stanza.args.map Token.text = args ∧ stanza.body = body := by
  obtain ⟨tagToken, argTokens, content⟩ := stanza
  unfold create
  rw [← Token.ofString?_eq_some_iff]
  cases Token.ofString? tag with
  | none => simp
  | some token =>
      simp only [bind_eq_ok_iff, mapM_argument_eq_ok_iff, pure_eq_ok, Except.ok.injEq, mk.injEq,
        Option.some.injEq]
      refine ⟨?_, ?_⟩
      · intro h
        obtain ⟨tokens, hargs, rfl, rfl, rfl⟩ := h
        exact ⟨rfl, hargs, rfl⟩
      · intro h
        obtain ⟨rfl, hargs, rfl⟩ := h
        exact ⟨argTokens, hargs, rfl, rfl, rfl⟩

end AgeFile.Stanza
