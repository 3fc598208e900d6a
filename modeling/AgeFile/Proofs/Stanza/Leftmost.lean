import AgeFile.Proofs.Stanza.Language
import AgeFile.Proofs.Stanza.Place
import Mathlib.Data.List.Chain

/-!
# The leftmost defect of a stanza line

The reader takes a stanza line apart at its spaces and judges one word after the other, with an
offset that runs along. Seen from the input there are no words, only places that are defective or
not. Read `DefectAt` first; `parseAt?_leftmost` says that the reader reports the first defective
place behind the marker and its space, and accepts the line where there is none. The argument is
that what stands before the reported place is `WellSpaced`, and that no place in there is defective.
-/

namespace AgeFile.Stanza

/-- What is wrong at a place of a line that ends at `stop`: a word belongs behind a space, but the
line ends there or another space follows; or the byte there is no printable ASCII. -/
inductive DefectAt (input : Bytes) (stop place : Nat) : Defect → Prop
  /-- No word begins where one should. -/
  | empty (hbefore : input[place - 1]? = some space)
      (hhere : place = stop ∨ input[place]? = some space) : DefectAt input stop place .emptyToken
  /-- The byte is not printable. -/
  | byte {found : UInt8} (hplace : place < stop) (hfound : input[place]? = some found)
      (hrange : found.toNat < 0x20 ∨ 0x7e < found.toNat) :
      DefectAt input stop place (.tokenByte found)

/-- The first defect of a line that begins at `offset`, from the third byte behind it on. -/
structure FirstDefect (input : Bytes) (offset stop place : Nat) (defect : Defect) : Prop where
  le_place : offset + 3 ≤ place
  place_le : place ≤ stop
  defectAt : DefectAt input stop place defect
  not_before : ∀ earlier, offset + 3 ≤ earlier → earlier < place →
    ∀ other, ¬ DefectAt input stop earlier other

variable {input line text before after : Bytes} {offset base stop place : Nat}
  {defect other : Defect} {tokens : List Token} {e : Error}

/-- There is one thing wrong at a place. -/
theorem DefectAt.unique (h : DefectAt input stop place defect)
    (hother : DefectAt input stop place other) : defect = other := by
  have hspace : space.toNat = 0x20 := rfl
  cases h with
  | empty _ hhere =>
      cases hother with
      | empty _ _ => rfl
      | byte hplace hfound hrange =>
          rcases hhere with hend | hhere
          · omega
          · obtain rfl := Option.some.inj (hhere.symm.trans hfound)
            omega
  | byte hplace hfound hrange =>
      cases hother with
      | empty _ hhere =>
          rcases hhere with hend | hhere
          · omega
          · obtain rfl := Option.some.inj (hhere.symm.trans hfound)
            omega
      | byte _ hfound' _ => rw [Option.some.inj (hfound.symm.trans hfound')]

/-- A line has one first defect. -/
theorem FirstDefect.unique {otherPlace : Nat} (h : FirstDefect input offset stop place defect)
    (hother : FirstDefect input offset stop otherPlace other) :
    place = otherPlace ∧ defect = other := by
  have hplace : place = otherPlace := by
    rcases Nat.lt_trichotomy place otherPlace with hlt | hsame | hlt
    · exact absurd h.defectAt (hother.not_before place h.le_place hlt defect)
    · exact hsame
    · exact absurd hother.defectAt (h.not_before otherPlace hother.le_place hlt other)
  subst hplace
  exact ⟨rfl, h.defectAt.unique hother.defectAt⟩

/-! ## Where nothing is wrong -/

/-- Words and single spaces: no two spaces follow each other, and every other byte can stand in a
token. -/
structure WellSpaced (bytes : Bytes) : Prop where
  isChain : bytes.IsChain fun a b => a = space → b ≠ space
  space_or_isTokenByte : ∀ b ∈ bytes, b = space ∨ isTokenByte b = true

/-- Bytes of a word may stand before anything that is well spaced. -/
theorem WellSpaced.append_word {word : Bytes} (hword : ∀ b ∈ word, isTokenByte b = true)
    (h : WellSpaced after) : WellSpaced (word ++ after) := by
  refine ⟨?_, ?_⟩
  · induction word with
    | nil => exact h.isChain
    | cons b word ih =>
        have hb : b ≠ space := by
          rintro rfl
          exact absurd (hword space List.mem_cons_self) (by decide)
        rw [List.cons_append, List.isChain_cons]
        exact ⟨fun _ _ hspace => absurd hspace hb,
          ih fun c hc => hword c (List.mem_cons_of_mem b hc)⟩
  · intro b hb
    rcases List.mem_append.mp hb with hb | hb
    · exact Or.inr (hword b hb)
    · exact h.space_or_isTokenByte b hb

/-- One space may stand before what is well spaced and does not begin with a space. -/
theorem WellSpaced.cons_space (h : WellSpaced after) (hhead : after.head? ≠ some space) :
    WellSpaced (space :: after) := by
  refine ⟨?_, ?_⟩
  · rw [List.isChain_cons]
    refine ⟨?_, h.isChain⟩
    rintro b hb - rfl
    exact hhead hb
  · intro b hb
    rcases List.mem_cons.mp hb with rfl | hb
    · exact Or.inl rfl
    · exact h.space_or_isTokenByte b hb

/-- Tokens with a space before each, one more space, and bytes of a word are well spaced. -/
theorem wellSpaced_spaced_append (tokens : List Token) {word : Bytes}
    (hword : ∀ b ∈ word, isTokenByte b = true) :
    WellSpaced (spaced tokens ++ space :: word) := by
  induction tokens with
  | nil =>
      have hnil : WellSpaced [] := ⟨.nil, by simp⟩
      have hwell : WellSpaced word := by
        have := hnil.append_word hword
        rwa [List.append_nil] at this
      refine hwell.cons_space ?_
      intro hhead
      exact absurd (hword space (List.mem_of_mem_head? hhead)) (by decide)
  | cons token tokens ih =>
      have hwell := ih.append_word token.isTokenByte_of_mem
      rw [spaced, List.flatMap_cons, List.cons_append, List.cons_append, List.append_assoc]
      refine hwell.cons_space ?_
      rw [List.head?_append_of_ne_nil _ token.ne_nil]
      intro hhead
      exact space_notMem_bytes token (List.mem_of_mem_head? hhead)

/-- Behind the first byte of what is well spaced, nothing is wrong at any of its bytes. -/
theorem WellSpaced.not_defectAt (h : WellSpaced before) (hdrop : input.drop base = before ++ after)
    (hlt : base < place) (hplace : place < base + before.length)
    (hstop : base + before.length ≤ stop) : ¬ DefectAt input stop place defect := by
  obtain ⟨i, rfl⟩ := Nat.exists_eq_add_of_lt hlt
  have hi : i + 1 < before.length := by omega
  have hprevious : input[base + i]? = some before[i] := by
    rw [getElem?_of_drop hdrop, List.getElem?_append_left (by omega), List.getElem?_eq_getElem]
  have hhere : input[base + i + 1]? = some before[i + 1] := by
    rw [Nat.add_assoc, getElem?_of_drop hdrop, List.getElem?_append_left hi,
      List.getElem?_eq_getElem]
  intro hdefect
  cases hdefect with
  | empty hbefore hspace =>
      rw [Nat.add_sub_cancel, hprevious, Option.some_inj] at hbefore
      rcases hspace with hend | hspace
      · omega
      · rw [hhere, Option.some_inj] at hspace
        exact List.isChain_iff_getElem.mp h.isChain i hi hbefore hspace
  | byte _ hfound hrange =>
      obtain rfl := Option.some.inj (hhere.symm.trans hfound)
      rcases h.space_or_isTokenByte _ (List.getElem_mem hi) with hspace | htoken
      · rw [hspace] at hrange
        exact absurd hrange (by decide)
      · rw [isTokenByte, Bool.and_eq_true, decide_eq_true_eq, decide_eq_true_eq] at htoken
        omega

/-! ## What the reader reports -/

/-- What follows the marker stands behind its two bytes. -/
theorem drop_behind_marker (h : input.drop offset = marker ++ text) :
    input.drop (offset + 2) = text := by
  rw [← List.drop_drop, h]
  exact List.drop_left' rfl

/-- A defect behind what is well spaced is the first one. -/
theorem WellSpaced.firstDefect (h : WellSpaced before)
    (hdrop : input.drop (offset + 2) = before ++ after) (hne : before ≠ [])
    (hstop : offset + 2 + before.length ≤ stop)
    (hdefect : DefectAt input stop (offset + 2 + before.length) defect) :
    FirstDefect input offset stop (offset + 2 + before.length) defect := by
  have hpos : 0 < before.length := List.length_pos_iff.mpr hne
  refine ⟨by omega, hstop, hdefect, ?_⟩
  intro earlier hle hlt other
  exact h.not_defectAt hdrop (by omega) hlt hstop

/-- A piece between separators holds none of them. -/
theorem notMem_of_mem_splitOn {separator : UInt8} {bytes piece : Bytes}
    (h : piece ∈ bytes.splitOn separator) : separator ∉ piece := by
  induction bytes generalizing piece with
  | nil =>
      rw [List.splitOn_nil, List.mem_singleton] at h
      rw [h]
      exact List.not_mem_nil
  | cons b bytes ih =>
      rw [List.splitOn_cons_eq_if_modifyHead] at h
      split at h
      · rcases List.mem_cons.mp h with rfl | h
        · exact List.not_mem_nil
        · exact ih h
      · rename_i hb
        cases hpieces : bytes.splitOn separator with
        | nil => exact absurd hpieces (List.splitOn_ne_nil separator bytes)
        | cons first others =>
            rw [hpieces, List.modifyHead_cons] at h
            rw [hpieces] at ih
            rcases List.mem_cons.mp h with rfl | h
            · rw [List.mem_cons, not_or]
              exact ⟨fun hsame => hb (by simp [hsame]), ih List.mem_cons_self⟩
            · exact ih (List.mem_cons_of_mem first h)

/-- A space behind tokens with nothing between it and the end of the line, or another space, is the
first defect of the line. -/
theorem firstDefect_of_empty {rest : Bytes}
    (hdrop : input.drop offset = marker ++ (spaced tokens ++ [space]) ++ after ++ rest)
    (hstop : stop = offset + (marker ++ (spaced tokens ++ [space]) ++ after).length)
    (hafter : after = [] ∨ after.head? = some space) :
    FirstDefect input offset stop (offset + marker.length + 1 + (spaced tokens).length)
      .emptyToken := by
  have hwell : WellSpaced (spaced tokens ++ [space]) := wellSpaced_spaced_append tokens (by simp)
  rw [List.append_assoc, List.append_assoc] at hdrop
  have hbehind := drop_behind_marker hdrop
  have hplace : offset + marker.length + 1 + (spaced tokens).length =
      offset + 2 + (spaced tokens ++ [space]).length := by
    rw [List.length_append, List.length_singleton, length_marker]
    omega
  rw [List.length_append, List.length_append, length_marker] at hstop
  rw [hplace]
  refine hwell.firstDefect hbehind (by simp) (by omega) (.empty ?_ ?_)
  · rw [List.length_append, List.length_singleton, ← Nat.add_assoc, Nat.add_sub_cancel,
      getElem?_of_drop hbehind]
    simp
  · rcases hafter with rfl | hspace
    · left
      rw [hstop, List.length_nil]
      omega
    · right
      obtain ⟨others, rfl⟩ := List.head?_eq_some_iff.mp hspace
      rw [getElem?_of_drop hbehind, List.getElem?_append_right (Nat.le_refl _), Nat.sub_self]
      rfl

/-- A byte of the last word that no token holds is the first defect of the line, if none such stands
before it. -/
theorem firstDefect_of_byte {good rest : Bytes} {found : UInt8}
    (hdrop : input.drop offset =
      marker ++ (spaced tokens ++ space :: good) ++ (found :: after) ++ rest)
    (hstop : stop = offset + (marker ++ (spaced tokens ++ space :: good) ++ found :: after).length)
    (hgood : ∀ b ∈ good, isTokenByte b = true) (hfound : isTokenByte found = false)
    (hspace : found ≠ space) :
    FirstDefect input offset stop
      (offset + marker.length + 1 + (spaced tokens).length + good.length)
      (.tokenByte found) := by
  rw [List.append_assoc, List.append_assoc] at hdrop
  have hbehind := drop_behind_marker hdrop
  have hplace : offset + marker.length + 1 + (spaced tokens).length + good.length =
      offset + 2 + (spaced tokens ++ space :: good).length := by
    rw [List.length_append, List.length_cons, length_marker]
    omega
  rw [List.length_append, List.length_append, List.length_cons,
    length_marker] at hstop
  rw [hplace]
  refine (wellSpaced_spaced_append tokens hgood).firstDefect hbehind (by simp) (by omega)
    (.byte (by omega) ?_ ?_)
  · rw [getElem?_of_drop hbehind, List.getElem?_append_right (Nat.le_refl _), Nat.sub_self]
    rfl
  · have hvalue : found.toNat ≠ 0x20 := fun hvalue => hspace (UInt8.toNat_inj.mp hvalue)
    rw [isTokenByte, Bool.and_eq_false_iff, decide_eq_false_iff_not,
      decide_eq_false_iff_not] at hfound
    omega

/-- A word that is no token is reported at the first defect of the line. -/
theorem firstDefect_of_tokenFailure {rest : Bytes} {word : Bytes} {others : List Bytes}
    (hdrop : input.drop offset = line ++ rest)
    (hline : line.splitOn space = marker :: (tokens.map Token.bytes ++ word :: others))
    (hword : TokenFailure (offset + marker.length + 1 + (spaced tokens).length) word e) :
    ∃ place defect, e = .malformed place defect ∧
      FirstDefect input offset (offset + line.length) place defect := by
  have hwords := intercalate_between marker tokens word others
  rw [← hline, List.intercalate_splitOn] at hwords
  cases hword with
  | empty =>
      have hparts : line = marker ++ (spaced tokens ++ [space]) ++
          others.flatMap fun word => space :: word := by
        rw [hwords]
        simp
      rw [hparts] at hdrop
      refine ⟨_, _, rfl, firstDefect_of_empty hdrop (by rw [hparts]) ?_⟩
      cases others with
      | nil => exact Or.inl rfl
      | cons next others => exact Or.inr rfl
  | @byte good bad found hgood hfound =>
      have hparts : line = marker ++ (spaced tokens ++ space :: good) ++
          found :: (bad ++ others.flatMap fun word => space :: word) := by
        rw [hwords]
        simp
      have hspace : found ≠ space := by
        rintro rfl
        have hmem : good ++ space :: bad ∈ line.splitOn space := by
          rw [hline]
          simp
        exact notMem_of_mem_splitOn hmem (by simp)
      rw [hparts] at hdrop
      exact ⟨_, _, rfl, firstDefect_of_byte hdrop (by rw [hparts]) hgood hfound hspace⟩

/-- Nothing is wrong with a line that is the marker and words. -/
theorem not_defectAt_of_words {rest : Bytes} {tag : Token} {args : List Token}
    (hdrop : input.drop offset = marker ++ spaced (tag :: args) ++ rest)
    (hstop : stop = offset + (marker ++ spaced (tag :: args)).length) (hle : offset + 3 ≤ place)
    (hplace : place ≤ stop) : ¬ DefectAt input stop place defect := by
  obtain ⟨init, last, htokens⟩ : ∃ init last, tag :: args = init ++ [last] :=
    (List.eq_nil_or_concat' (tag :: args)).resolve_left (List.cons_ne_nil tag args)
  have hspaced : spaced (tag :: args) = spaced init ++ space :: last.bytes := by
    rw [htokens]
    simp [spaced]
  have hwell := wellSpaced_spaced_append init last.isTokenByte_of_mem
  rw [hspaced, List.append_assoc] at hdrop
  have hbehind := drop_behind_marker hdrop
  rw [hspaced, List.length_append, length_marker, ← Nat.add_assoc] at hstop
  rcases Nat.lt_or_eq_of_le hplace with hlt | hend
  · exact hwell.not_defectAt hbehind hle (by omega) (by omega)
  · -- The line ends behind the last byte of a token, which is no space.
    intro hdefect
    cases hdefect with
    | byte hlt _ _ => omega
    | empty hbefore _ =>
        have hlength : 0 < last.bytes.length := List.length_pos_iff.mpr last.ne_nil
        have hindex : place - 1 =
            offset + 2 + ((spaced init ++ [space]).length + (last.bytes.length - 1)) := by
          rw [hend, hstop, List.length_append, List.length_append, List.length_cons,
            List.length_singleton]
          omega
        have hparts : spaced init ++ space :: last.bytes ++ rest =
            (spaced init ++ [space]) ++ (last.bytes ++ rest) := by simp
        rw [hindex, getElem?_of_drop hbehind, hparts,
          List.getElem?_append_right (Nat.le_add_right _ _), Nat.add_sub_cancel_left,
          List.getElem?_append_left (by omega)] at hbefore
        exact space_notMem_bytes last (List.mem_of_getElem? hbefore)

/-! ## The line as a whole -/

/-- A line that begins where the marker stands is the marker and what follows it. -/
theorem exists_eq_marker_append {rest : Bytes} (h : marker <+: line ++ lineFeed :: rest) :
    ∃ after, line = marker ++ after := by
  have hfeed : lineFeed ∉ marker := by decide
  have hwhole : line ++ [lineFeed] <+: line ++ lineFeed :: rest := ⟨rest, by simp⟩
  rcases List.prefix_or_prefix_of_prefix h hwhole with hmarker | hline
  · rcases List.prefix_concat_iff.mp hmarker with hsame | ⟨after, hafter⟩
    · exact absurd (by rw [hsame]; simp) hfeed
    · exact ⟨after, hafter.symm⟩
  · exact absurd (hline.subset (by simp)) hfeed

/-- A line with another byte than a space behind the marker is refused for it. -/
theorem readWords_of_ne_space {byte : UInt8} (h : byte ≠ space) :
    readWords offset (marker ++ byte :: text) = .error (.malformed offset .markerWithoutSpace) := by
  refine readWords_eq_error_iff.mpr (.marker ?_)
  intro hhead
  obtain ⟨words, hwords⟩ := List.head?_eq_some_iff.mp hhead
  have hline : [space].intercalate ((marker ++ byte :: text).splitOn space) =
      marker ++ byte :: text := List.intercalate_splitOn space
  rw [hwords, intercalate_cons, List.append_cancel_left_eq] at hline
  cases words with
  | nil => exact absurd hline (by simp)
  | cons word words =>
      rw [List.flatMap_cons, List.cons_append] at hline
      exact h (List.cons.inj hline).1.symm

/-- A line with a space behind the marker is split into the marker and the pieces behind the
space. -/
theorem splitOn_marker_space (text : Bytes) :
    (marker ++ space :: text).splitOn space = marker :: text.splitOn space :=
  List.splitOn_append_cons_self_of_not_mem (by decide) text

/-- A line with a space behind the marker has no defect, and its pieces are its words, or its first
defect is reported. -/
theorem words_or_firstDefect {rest : Bytes}
    (hdrop : input.drop offset = marker ++ space :: text ++ rest)
    (hstop : stop = offset + (marker ++ space :: text).length) :
    (∃ tag args, readWords offset (marker ++ space :: text) = .ok (tag, args) ∧
      (tag :: args).map Token.bytes = text.splitOn space ∧
      ∀ place defect, offset + 3 ≤ place → place ≤ stop → ¬ DefectAt input stop place defect) ∨
    ∃ place defect, readWords offset (marker ++ space :: text) = .error (.malformed place defect) ∧
      FirstDefect input offset stop place defect := by
  have hsplit := splitOn_marker_space text
  cases hwords : readWords offset (marker ++ space :: text) with
  | ok words =>
      obtain ⟨tag, args⟩ := words
      have hline := readWords_eq_ok_iff.mp hwords
      have hpieces := (splitOn_space_eq_iff (by decide)).mpr hline
      rw [hline] at hdrop hstop
      refine Or.inl ⟨tag, args, rfl, ?_, ?_⟩
      · exact (List.cons.inj (hpieces.symm.trans hsplit)).2
      · intro place defect hle hplace
        exact not_defectAt_of_words hdrop hstop hle hplace
  | error e =>
      right
      cases readWords_eq_error_iff.mp hwords with
      | marker hhead => exact absurd (by rw [hsplit]; rfl) hhead
      | missing hline =>
          rw [hsplit] at hline
          exact absurd (List.cons.inj hline).2 (List.splitOn_ne_nil space text)
      | token hline hword =>
          obtain ⟨place, defect, rfl, hfirst⟩ := firstDefect_of_tokenFailure hdrop hline hword
          exact ⟨place, defect, rfl, hstop ▸ hfirst⟩

/-- Of a stanza line that begins at any offset of any input, the reader reports the leftmost defect.
If the line does not end, the input is short of one byte. A line that is the marker alone, or has no
space behind it, is refused at its beginning. In any other line, the first place behind that space
at which a word is missing or an unprintable byte stands is reported, whatever follows the line; and
where there is no such place, the pieces between the spaces are the type and the arguments, and the
answer is that of the body. The two kinds of defects have texts of their own. -/
theorem parseAt?_leftmost (input : Bytes) (offset : Nat)
    (hmarker : ascii "->" <+: input.drop offset) :
    (lineFeed ∉ input.drop offset → parseAt? input offset =
      some (.error (.truncated (input.length - offset + 1) (input.length - offset)))) ∧
    (∀ stop bytes, Checked.slice? input offset stop = some bytes → lineFeed ∉ bytes →
      input[stop]? = some lineFeed →
        (bytes = ascii "->" →
          parseAt? input offset = some (.error (.malformed offset .missingType))) ∧
        (bytes ≠ ascii "->" → bytes[2]? ≠ some space →
          parseAt? input offset = some (.error (.malformed offset .markerWithoutSpace))) ∧
        (bytes[2]? = some space →
          (∀ place defect, FirstDefect input offset stop place defect →
            parseAt? input offset = some (.error (.malformed place defect))) ∧
          ((∀ place defect, offset + 3 ≤ place → place ≤ stop →
              ¬ DefectAt input stop place defect) →
            ∃ tag args, (tag :: args).map Token.bytes = (bytes.drop 3).splitOn space ∧
              parseAt? input offset =
                some ((readBody ⟨stop + 1, input.drop (stop + 1)⟩).map fun (body, next) =>
                  some (⟨tag, args, body⟩, next.offset))))) ∧
    Defect.emptyToken.message = "empty stanza token (doubled or trailing space)" ∧
    ∀ found, (Defect.tokenByte found).message =
      "invalid byte 0x" ++ Text.hexByte found ++ " in stanza token" := by
  refine ⟨?_, ?_, rfl, fun _ => rfl⟩
  · intro hcut
    have hpos := hmarker.length_le
    rw [List.length_drop, show (ascii "->").length = 2 from rfl] at hpos
    have hle : offset ≤ input.length := by omega
    have hin : Cursor.IsIn ⟨offset, input.drop offset⟩ input := ⟨hle, rfl⟩
    have hfailure : ReadFailure ⟨offset, input.drop offset⟩ _ :=
      .cut (startsWith_marker_iff.mpr hmarker) hcut
    rw [parseAt?_offset hin, read_eq_error_iff.mpr hfailure, ← List.length_drop]
    rfl
  · intro stop line hline hnone hfeed
    have hrefused := fun e => parseAt?_of_words_error (e := e) hmarker hline hnone hfeed
    obtain ⟨-, hdrop, hoffset⟩ :=
      Cursor.readLine_eq_ok_iff.mp (readLine_of_slice? hline hnone hfeed)
    have hrest : input.drop offset = line ++ lineFeed :: input.drop (stop + 1) := hdrop
    have hstop : stop = offset + line.length := Nat.succ.inj hoffset
    rw [hrest] at hmarker
    obtain ⟨after, rfl⟩ := exists_eq_marker_append hmarker
    refine ⟨?_, ?_, ?_⟩
    · intro halone
      refine hrefused _ (readWords_eq_error_iff.mpr (.missing ?_))
      rw [halone]
      exact List.splitOn_eq_singleton (by decide)
    · intro halone hspace
      cases after with
      | nil => exact absurd (List.append_nil _) halone
      | cons byte text =>
          have hbyte : byte ≠ space := fun hsame => hspace (by rw [hsame]; rfl)
          exact hrefused _ (readWords_of_ne_space hbyte)
    · intro hspace
      cases after with
      | nil => exact absurd hspace (by decide)
      | cons byte text =>
          obtain rfl : byte = space := Option.some.inj hspace
          rcases words_or_firstDefect hrest hstop with
            ⟨tag, args, hwords, hpieces, hclean⟩ | ⟨place, defect, herror, hfirst⟩
          · refine ⟨?_, fun _ => ⟨tag, args, hpieces, parseAt?_of_words hline hfeed hwords⟩⟩
            intro place defect hfirst
            exact absurd hfirst.defectAt (hclean place defect hfirst.le_place hfirst.place_le)
          · refine ⟨?_, ?_⟩
            · intro otherPlace other hother
              obtain ⟨rfl, rfl⟩ := hother.unique hfirst
              exact hrefused _ herror
            · intro hclean
              exact absurd hfirst.defectAt (hclean place defect hfirst.le_place hfirst.place_le)

/-- A stanza line with a doubled space, then a control character, and a space at its end. -/
def threeDefects : Bytes :=
  ascii "-> a  b" ++ 0x01 :: ascii " \n"

/-- Of three defects the doubled space is reported, which stands before the others. -/
theorem parseAt?_threeDefects :
    ascii "->" <+: threeDefects.drop 0 ∧
      parseAt? threeDefects 0 = some (.error (.malformed 5 .emptyToken)) := by
  have hmarker : ascii "->" <+: threeDefects.drop 0 := ⟨_, rfl⟩
  have hfirst : FirstDefect threeDefects 0 9 5 .emptyToken := by
    refine ⟨by decide, by decide, .empty rfl (Or.inr rfl), ?_⟩
    intro earlier hle hlt other hdefect
    obtain rfl | rfl : earlier = 3 ∨ earlier = 4 := by omega
    · cases hdefect with
      | empty _ hhere => exact absurd hhere (by decide)
      | byte _ hfound hrange =>
          obtain rfl := Option.some.inj hfound
          exact absurd hrange (by decide)
    · cases hdefect with
      | empty hbefore _ => exact absurd hbefore (by decide)
      | byte _ hfound hrange =>
          obtain rfl := Option.some.inj hfound
          exact absurd hrange (by decide)
  have hline := (parseAt?_leftmost threeDefects 0 hmarker).2.1 9 (threeDefects.take 9) rfl
    (by decide) rfl
  exact ⟨hmarker, (hline.2.2 rfl).1 5 .emptyToken hfirst⟩

end AgeFile.Stanza
