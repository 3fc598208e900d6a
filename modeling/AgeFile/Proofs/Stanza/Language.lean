import AgeFile.Proofs.Cursor.Checked
import AgeFile.Proofs.Stanza.Codec

/-!
# The language of stanzas

From any offset of an input, the reader accepts what the writer writes and nothing else. Read
`parseAt?_eq_some_iff` first: a stanza is read between two offsets exactly when the bytes between
them are its written form, so the bytes that follow play no part. `parseAt?_iff_create` puts this in
terms of the texts that a stanza is built from; since texts are judged when a stanza is built and
bytes when it is read, it also says that both judge words alike (`readToken_utf8`).
-/

namespace AgeFile

/-- The bytes of a text in UTF-8. -/
def utf8 (text : String) : Bytes :=
  text.toByteArray.data.toList

/-- Different texts have different bytes. -/
theorem utf8_injective : Function.Injective utf8 := by
  intro first second h
  exact String.toByteArray_inj.mp (ByteArray.ext (Array.toList_inj.mp h))

/-- A text is written in UTF-8 character by character. -/
theorem utf8_eq (text : String) : utf8 text = text.toList.flatMap String.utf8EncodeChar := by
  rw [utf8, ← String.utf8Encode_toList, List.utf8Encode, List.toList_data_toByteArray]

/-- In UTF-8 an ASCII text has its ASCII bytes. -/
theorem utf8_of_ascii {text : String} (h : ∀ c ∈ text.toList, c.toNat < 0x80) :
    utf8 text = ascii text := by
  rw [utf8_eq, ascii]
  generalize text.toList = chars at h
  induction chars with
  | nil => rfl
  | cons c rest ih =>
      have hc : c.val.toNat ≤ 127 := Nat.le_of_lt_succ (h c List.mem_cons_self)
      rw [List.flatMap_cons, List.map_cons, ih fun d hd => h d (List.mem_cons_of_mem c hd),
        String.utf8EncodeChar, if_pos hc]
      rfl

/-- The text of a token has the token's bytes in UTF-8. -/
theorem Token.utf8_text (token : Token) : utf8 token.text = token.bytes := by
  rw [utf8_of_ascii, text, Bytes.ascii_latinText]
  intro c hc
  rw [text, Bytes.latinText, String.toList_ofList] at hc
  obtain ⟨b, hb, rfl⟩ := List.mem_map.mp hc
  have hbyte := token.isTokenByte_of_mem b hb
  rw [isTokenByte, Bool.and_eq_true, decide_eq_true_eq, decide_eq_true_eq] at hbyte
  rw [Bytes.toNat_charOfNat (by omega)]
  omega

namespace Stanza

variable {cursor : Cursor} {input : Bytes} {offset stop : Nat} {stanza : Stanza}

/-- The reader takes the bytes of a text as a token exactly when the text is taken as this token
where a stanza is built. -/
theorem readToken_utf8 {place : Nat} {text : String} {token : Token} :
    readToken place (utf8 text) = .ok token ↔ Token.ofString? text = some token := by
  rw [readToken_eq_ok_iff, Token.ofString?_eq_some_iff, ← token.utf8_text, utf8_injective.eq_iff,
    eq_comm]

/-- From the offset of a position the stanza there is read. -/
theorem parseAt?_offset (hin : cursor.IsIn input) :
    parseAt? input cursor.offset =
      some ((read cursor).map (Option.map Checked.atOffset)) := by
  rw [parseAt?, Cursor.at?_eq_some_iff.mpr ⟨hin, rfl⟩]
  rfl

/-- A stanza is read from an offset up to another exactly when its written form stands between
them. -/
theorem parseAt?_eq_some_iff :
    parseAt? input offset = some (.ok (some (stanza, stop))) ↔
      Checked.slice? input offset stop = some stanza.encode := by
  refine ⟨?_, ?_⟩
  · intro h
    obtain ⟨cursor, found, hin, rfl, hread, hview⟩ := Checked.exists_cursor h
    obtain ⟨⟨other, next⟩, rfl, hfound⟩ := Option.map_eq_some_iff.mp hview
    obtain ⟨rfl, rfl⟩ := Prod.mk.inj hfound
    exact (Checked.slice?_offset_eq_some_iff hin).mpr ⟨next, read_eq_ok_some_iff.mp hread, rfl⟩
  · intro h
    have hin := Checked.isIn_of_slice? h
    obtain ⟨next, hspans, rfl⟩ := (Checked.slice?_offset_eq_some_iff hin).mp h
    rw [parseAt?_offset hin, read_eq_ok_some_iff.mpr hspans]
    rfl

/-- The marker stands at a position exactly when what is left to read begins with it. -/
theorem startsWith_marker_iff : cursor.startsWith marker = true ↔ marker <+: cursor.rest := by
  rw [Cursor.startsWith, List.isPrefixOf_iff_prefix]

/-- There is no stanza at an offset exactly where the marker does not stand. -/
theorem parseAt?_eq_none_iff :
    parseAt? input offset = some (.ok none) ↔
      offset ≤ input.length ∧ ¬ marker <+: input.drop offset := by
  have hmarker : Cursor.startsWith ⟨offset, input.drop offset⟩ marker = false ↔
      ¬ marker <+: input.drop offset := by
    rw [Bool.eq_false_iff, Ne, startsWith_marker_iff]
  refine ⟨?_, ?_⟩
  · intro h
    obtain ⟨cursor, found, hin, rfl, hread, hview⟩ := Checked.exists_cursor h
    obtain rfl := Option.map_eq_none_iff.mp hview
    refine ⟨hin.offset_le, hmarker.mp ?_⟩
    rw [← hin.rest_eq]
    exact read_eq_ok_none_iff.mp hread
  · intro h
    obtain ⟨hle, hnone⟩ := h
    have hin : Cursor.IsIn ⟨offset, input.drop offset⟩ input := ⟨hle, rfl⟩
    rw [parseAt?_offset hin, read_eq_ok_none_iff.mpr (hmarker.mpr hnone)]
    rfl

/-! ## Line by line -/

variable {line : Bytes} {tag : Token} {args : List Token} {e : Error}

/-- The line from an offset up to the first line feed behind it is read. -/
theorem readLine_of_slice? (hline : Checked.slice? input offset stop = some line)
    (hnone : lineFeed ∉ line) (hfeed : input[stop]? = some lineFeed) :
    Cursor.readLine ⟨offset, input.drop offset⟩ =
      .ok (line, ⟨stop + 1, input.drop (stop + 1)⟩) := by
  obtain ⟨hstart, hstop, rfl⟩ := Checked.slice?_eq_some_iff.mp hline
  obtain ⟨hlt, hbyte⟩ := List.getElem?_eq_some_iff.mp hfeed
  refine Cursor.readLine_eq_ok_iff.mpr ⟨hnone, ?_, ?_⟩
  · show input.drop offset = (input.take stop).drop offset ++ lineFeed :: input.drop (stop + 1)
    rw [← hbyte, ← List.drop_eq_getElem_cons hlt,
      ← List.drop_append_of_le_length (by rw [List.length_take]; omega), List.take_append_drop]
  · show stop + 1 = offset + ((input.take stop).drop offset).length + 1
    rw [List.length_drop, List.length_take]
    omega

/-- Behind a line of words the body is read, and the stanza consists of both. -/
theorem parseAt?_of_words (hline : Checked.slice? input offset stop = some line)
    (hfeed : input[stop]? = some lineFeed) (hwords : readWords offset line = .ok (tag, args)) :
    parseAt? input offset =
      some ((readBody ⟨stop + 1, input.drop (stop + 1)⟩).map fun (body, next) =>
        some (⟨tag, args, body⟩, next.offset)) := by
  obtain rfl := readWords_eq_ok_iff.mp hwords
  have hin := Checked.isIn_of_slice? hline
  obtain ⟨next, hspans, -⟩ := (Checked.slice?_offset_eq_some_iff hin).mp hline
  have hmarker : Cursor.startsWith ⟨offset, input.drop offset⟩ marker = true := by
    obtain ⟨middle, hfirst, -⟩ := Cursor.spans_append_iff.mp hspans
    exact hfirst.startsWith
  have hread := readLine_of_slice? hline (lineFeed_notMem_words (tag :: args)) hfeed
  rw [parseAt?_offset hin, read, if_pos hmarker, hread]
  simp only [ok_bind, hwords]
  cases readBody ⟨stop + 1, input.drop (stop + 1)⟩ with
  | error e => rfl
  | ok found => rfl

/-- A line that begins with the marker and is not the marker and words is refused. -/
theorem parseAt?_of_words_error (hmarker : marker <+: input.drop offset)
    (hline : Checked.slice? input offset stop = some line) (hnone : lineFeed ∉ line)
    (hfeed : input[stop]? = some lineFeed) (hwords : readWords offset line = .error e) :
    parseAt? input offset = some (.error e) := by
  have hin := Checked.isIn_of_slice? hline
  rw [parseAt?_offset hin, read, if_pos (startsWith_marker_iff.mpr hmarker),
    readLine_of_slice? hline hnone hfeed]
  simp only [ok_bind, hwords, error_bind]
  rfl

/-! ## What is written -/

/-- The part of an input up to an offset is its part also when other bytes follow the offset. -/
theorem slice?_take_append {part : Bytes} (h : Checked.slice? input offset stop = some part)
    (tail : Bytes) : Checked.slice? (input.take stop ++ tail) offset stop = some part := by
  obtain ⟨hstart, hstop, hpart⟩ := Checked.slice?_eq_some_iff.mp h
  have hlength : (input.take stop).length = stop := List.length_take_of_le hstop
  refine Checked.slice?_eq_some_iff.mpr ⟨hstart, ?_, ?_⟩
  · rw [List.length_append]
    omega
  · rw [List.take_left' hlength, hpart]

/-- From any offset of any input, a stanza with a type, arguments and a body is read up to an offset
exactly when such a stanza can be built and the bytes up to there are what is written for it behind
any buffer. The reader and the building of stanzas accept the same words. Whatever follows the
stanza, the same is read. There is no stanza exactly where the marker does not stand. -/
theorem parseAt?_iff_create (input : Bytes) (offset : Nat) :
    (∀ (tag : String) (args : List String) (body : Bytes) (stop : Nat),
      (∃ stanza : Stanza,
        (stanza.tag.text = tag ∧ stanza.args.map Token.text = args ∧ stanza.body = body) ∧
        parseAt? input offset = some (.ok (some (stanza, stop)))) ↔
      ∃ stanza written, create tag args body = .ok stanza ∧
        Checked.slice? input offset stop = some written ∧
        ∀ buffer, appendTo buffer stanza = buffer ++ written) ∧
    (∀ (place : Nat) (text : String) (token : Token),
      readToken place (utf8 text) = .ok token ↔ Token.ofString? text = some token) ∧
    (∀ stanza stop, parseAt? input offset = some (.ok (some (stanza, stop))) → ∀ tail,
      parseAt? (input.take stop ++ tail) offset = some (.ok (some (stanza, stop)))) ∧
    (parseAt? input offset = some (.ok none) ↔
      offset ≤ input.length ∧ ¬ ascii "->" <+: input.drop offset) := by
  refine ⟨?_, fun _ _ _ => readToken_utf8, ?_, parseAt?_eq_none_iff⟩
  · intro tag args body stop
    refine exists_congr fun stanza => ?_
    rw [parseAt?_eq_some_iff, ← create_eq_ok_iff]
    refine ⟨?_, ?_⟩
    · intro h
      obtain ⟨hcreate, hslice⟩ := h
      exact ⟨stanza.encode, hcreate, hslice, fun _ => rfl⟩
    · intro h
      obtain ⟨written, hcreate, hslice, hwritten⟩ := h
      obtain rfl : stanza.encode = written := hwritten []
      exact ⟨hcreate, hslice⟩
  · intro stanza stop h tail
    rw [parseAt?_eq_some_iff] at h ⊢
    exact slice?_take_append h tail

end Stanza

end AgeFile
