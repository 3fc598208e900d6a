import AgeFile.Proofs.Toml.Number
import AgeFile.Toml.Reader
import Mathlib.Data.List.Nodup

/-!
# Lines that set a field to a number

The simplest documents set fields to decimal numbers, one on each line. Read `read_fields` first: as
long as no name stands twice, the table of such a document has these fields in their order, and
nothing else. One line is read by `readStatement_field`; the reader goes on behind it with what
follows the end of the line, whatever that is.
-/

namespace AgeFile.Toml

/-- A name that needs no quotes, and a number that it is set to. -/
structure Field where
  name : String
  value : Nat
  name_ne_nil : name.toList ≠ []
  all_isBareKeyChar : name.toList.all isBareKeyChar = true
  value_lt : value < 0x8000000000000000

namespace Field

/-- A field as it is written: its name, an equals sign between spaces, and the decimal digits. -/
def text (field : Field) : List Char :=
  field.name.toList ++ ' ' :: '=' :: ' ' :: Nat.toDigits 10 field.value

/-- The statement that sets a field. -/
def statement (field : Field) : Statement :=
  .assign ⟨[], field.name⟩ (.integer field.value)

/-- A field as an entry of a table. -/
def entry (field : Field) : String × Value :=
  (field.name, .integer field.value)

/-- Every character of a name is one of those that can stand in it. -/
theorem isBareKeyChar_of_mem (field : Field) : ∀ c ∈ field.name.toList, isBareKeyChar c = true :=
  List.all_eq_true.mp field.all_isBareKeyChar

/-- A name has a first character, and it is one of those that can stand in a name. -/
theorem exists_name_eq (field : Field) :
    ∃ c rest, field.name.toList = c :: rest ∧ isBareKeyChar c = true := by
  obtain ⟨c, rest, hname⟩ := List.exists_cons_of_ne_nil field.name_ne_nil
  exact ⟨c, rest, hname, field.isBareKeyChar_of_mem c (by simp [hname])⟩

/-- What is written for a field begins with its name. -/
theorem exists_text_append_eq (field : Field) (tail : List Char) :
    ∃ c rest, field.text ++ tail = c :: rest ∧ isBareKeyChar c = true := by
  obtain ⟨c, rest, hname, hc⟩ := field.exists_name_eq
  rw [text, hname]
  exact ⟨c, _, rfl, hc⟩

end Field

variable {n : Nat} {c d : Char} {chars tail next : List Char} {field : Field} {fields : List Field}

/-! ## The name -/

/-- Characters of which one can stand in a name and the other cannot are different. -/
theorem ne_of_isBareKeyChar (hc : isBareKeyChar c = true) (hd : isBareKeyChar d = false) :
    c ≠ d := by
  rintro rfl
  exact absurd hc (by simp [hd])

/-- No blank stands before a name. -/
theorem skipBlanks_of_isBareKeyChar (h : isBareKeyChar c = true) :
    skipBlanks (c :: chars) = c :: chars := by
  refine List.dropWhile_cons_of_neg ?_
  have hspace : c ≠ ' ' := ne_of_isBareKeyChar h (by decide)
  have htab : c ≠ '\t' := ne_of_isBareKeyChar h (by decide)
  simp [isBlank, hspace, htab]

/-- A name without quotes is read up to the first character that cannot stand in it. -/
theorem readKeyPart_name (field : Field) (hd : isBareKeyChar d = false) :
    readKeyPart (field.name.toList ++ d :: tail) = some (field.name, d :: tail) := by
  have htake : (field.name.toList ++ d :: tail).takeWhile isBareKeyChar = field.name.toList := by
    rw [List.takeWhile_append_of_pos field.isBareKeyChar_of_mem,
      List.takeWhile_cons_of_neg (by simp [hd]), List.append_nil]
  have hdrop : (field.name.toList ++ d :: tail).dropWhile isBareKeyChar = d :: tail := by
    rw [List.dropWhile_append_of_pos field.isBareKeyChar_of_mem,
      List.dropWhile_cons_of_neg (by simp [hd])]
  obtain ⟨c, rest, hname, hc⟩ := field.exists_name_eq
  unfold readKeyPart
  split
  · rename_i heq
    rw [hname] at heq
    exact absurd (List.cons.inj heq).1 (ne_of_isBareKeyChar hc (by decide))
  · rename_i heq
    rw [hname] at heq
    exact absurd (List.cons.inj heq).1 (ne_of_isBareKeyChar hc (by decide))
  · rw [htake, hdrop]
    show (if field.name.toList = [] then none
      else some (String.ofList field.name.toList, d :: tail)) = _
    rw [if_neg field.name_ne_nil, String.ofList_toList]

/-- The name of a field is read as a key of one part. -/
theorem readKey_name (field : Field) :
    readKey (field.name.toList ++ ' ' :: '=' :: tail) =
      some (⟨[], field.name⟩, '=' :: tail) := by
  have hpart : readKeyPart (field.name.toList ++ ' ' :: '=' :: tail) =
      some (field.name, ' ' :: '=' :: tail) := readKeyPart_name field (by decide)
  have hblanks : skipBlanks (field.name.toList ++ ' ' :: '=' :: tail) =
      field.name.toList ++ ' ' :: '=' :: tail := by
    obtain ⟨c, rest, hname, hc⟩ := field.exists_name_eq
    rw [hname]
    exact skipBlanks_of_isBareKeyChar hc
  show readKeyParts (78 + 1) _ = _
  rw [readKeyParts, hblanks, hpart]
  rfl

/-! ## The number -/

/-- What is no digit does not stand in a number. -/
theorem notMem_toDigits (h : c.isDigit = false) : c ∉ Nat.toDigits 10 n := by
  intro hmem
  exact absurd (isDigit_of_mem hmem) (by simp [h])

/-- A number has a first digit. -/
theorem exists_toDigits_eq (n : Nat) :
    ∃ c rest, Nat.toDigits 10 n = c :: rest ∧ c.isDigit = true := by
  obtain ⟨c, rest, hdigits⟩ := List.exists_cons_of_ne_nil (Nat.toDigits_ne_nil (n := n) (b := 10))
  exact ⟨c, rest, hdigits, isDigit_of_mem (n := n) (by simp [hdigits])⟩

/-- The digits of a number are a value: the number. -/
theorem scalar?_toDigits (h : n < 0x8000000000000000) :
    scalar? (Nat.toDigits 10 n) = some (.integer n) := by
  have htrue : Nat.toDigits 10 n ≠ "true".toList := by
    intro heq
    exact notMem_toDigits (c := 't') (n := n) (by decide) (by simp [heq])
  have hfalse : Nat.toDigits 10 n ≠ "false".toList := by
    intro heq
    exact notMem_toDigits (c := 'f') (n := n) (by decide) (by simp [heq])
  rw [scalar?, if_neg htrue, if_neg hfalse, integer?_toDigits h]

/-- The digits of a number are no date. -/
theorem isDate_toDigits (n : Nat) : isDate (Nat.toDigits 10 n) = false := by
  unfold isDate
  split
  · rename_i heq
    exact absurd (by simp [heq]) (notMem_toDigits (c := '-') (n := n) (by decide))
  · rfl

/-- Digits are read up to the first character that can stand in no number and no date. -/
theorem readScalar_toDigits (h : n < 0x8000000000000000)
    (htail : ∀ c ∈ tail.head?, isScalarChar c = false) :
    readScalar (Nat.toDigits 10 n ++ tail) = some (.integer n, tail) := by
  have hdigit : ∀ c ∈ Nat.toDigits 10 n, isScalarChar c = true := by
    intro c hc
    simp [isScalarChar, Char.isAlphanum, isDigit_of_mem hc]
  have htake : (Nat.toDigits 10 n ++ tail).takeWhile isScalarChar = Nat.toDigits 10 n := by
    rw [List.takeWhile_append_of_pos hdigit]
    cases tail with
    | nil => simp
    | cons c tail => rw [List.takeWhile_cons_of_neg (by simp [htail c rfl]), List.append_nil]
  have hdrop : (Nat.toDigits 10 n ++ tail).dropWhile isScalarChar = tail := by
    rw [List.dropWhile_append_of_pos hdigit]
    cases tail with
    | nil => rfl
    | cons c tail => rw [List.dropWhile_cons_of_neg (by simp [htail c rfl])]
  unfold readScalar
  simp only [htake, hdrop, scalar?_toDigits h, isDate_toDigits, Bool.false_and]
  split
  · rfl
  · rfl

/-- A value that begins with a digit has no quotes and no brackets. -/
theorem readValue_toDigits (depth : Nat) :
    readValue depth (Nat.toDigits 10 n ++ tail) = readScalar (Nat.toDigits 10 n ++ tail) := by
  obtain ⟨c, rest, hdigits, hc⟩ := exists_toDigits_eq n
  rw [hdigits, List.cons_append]
  unfold readValue
  split
  case h_7 => rfl
  all_goals
    rename_i heq
    obtain ⟨rfl, -⟩ := List.cons.inj heq
    exact absurd hc (by decide)

/-! ## The line -/

/-- The end of a line begins with no character that can stand in a number. -/
theorem isScalarChar_of_readLineEnd (h : readLineEnd tail = some next) :
    ∀ c ∈ tail.head?, isScalarChar c = false := by
  intro c hc
  obtain ⟨rest, rfl⟩ := List.head?_eq_some_iff.mp hc
  by_contra hscalar
  rw [Bool.not_eq_false] at hscalar
  have hne : ∀ d, isScalarChar d = false → c ≠ d := by
    rintro d hd rfl
    exact absurd hscalar (by simp [hd])
  have hspace := hne ' ' (by decide)
  have htab := hne '\t' (by decide)
  have hblanks : skipBlanks (c :: rest) = c :: rest :=
    List.dropWhile_cons_of_neg (by simp [isBlank, hspace, htab])
  have hcomment := hne '#' (by decide)
  have hfeed := hne '\n' (by decide)
  have hreturn := hne '\r' (by decide)
  simp [readLineEnd, hblanks, hcomment, afterNewline?, hfeed, hreturn] at h

/-- A field is read as a pair of a key and a value. -/
theorem readPair_field (field : Field) (htail : readLineEnd tail = some next) :
    readPair (readValue depthLimit) (field.text ++ tail) =
      some ((⟨[], field.name⟩, .integer field.value), tail) := by
  obtain ⟨c, rest, hdigits, hc⟩ := exists_toDigits_eq field.value
  have hbare : isBareKeyChar c = true := by simp [isBareKeyChar, Char.isAlphanum, hc]
  have hblanks : skipBlanks (' ' :: (Nat.toDigits 10 field.value ++ tail)) =
      Nat.toDigits 10 field.value ++ tail := by
    rw [hdigits]
    exact skipBlanks_of_isBareKeyChar hbare
  have htext : field.text ++ tail = field.name.toList ++ ' ' :: '=' ::
      (' ' :: (Nat.toDigits 10 field.value ++ tail)) := by
    simp [Field.text]
  have hvalue := readScalar_toDigits field.value_lt (isScalarChar_of_readLineEnd htail)
  rw [readPair, htext, readKey_name]
  show (readValue depthLimit (skipBlanks _)).map _ = _
  rw [hblanks, readValue_toDigits, hvalue]
  rfl

/-- A line that sets a field is read as its statement, up to the end of the line. -/
theorem readStatement_field (field : Field) (htail : readLineEnd tail = some next) :
    readStatement (field.text ++ tail) = some (field.statement, next) := by
  have hpair := readPair_field field htail
  obtain ⟨c, rest, htext, hc⟩ := field.exists_text_append_eq tail
  have hbracket : c ≠ '[' := ne_of_isBareKeyChar hc (by decide)
  rw [htext] at hpair ⊢
  unfold readStatement
  split
  · rename_i heq
    exact absurd (List.cons.inj heq).1 hbracket
  · rename_i heq
    exact absurd (List.cons.inj heq).1 hbracket
  · rw [hpair]
    show (readLineEnd tail).bind _ = _
    rw [htail]
    rfl

/-- The statements go on behind a line that sets a field. -/
theorem readStatements_field {most : Nat} {done : List Statement} (field : Field)
    (htail : readLineEnd tail = some next) :
    readStatements (most + 1) done (field.text ++ tail) =
      readStatements most (field.statement :: done) next := by
  have hstatement := readStatement_field field htail
  obtain ⟨c, rest, htext, hc⟩ := field.exists_text_append_eq tail
  have hline : ¬ (c = '#' ∨ c = '\n' ∨ c = '\r') := by
    rintro (rfl | rfl | rfl)
    all_goals exact absurd hc (by decide)
  rw [htext] at hstatement ⊢
  rw [readStatements, skipBlanks_of_isBareKeyChar hc]
  simp only [if_neg hline, hstatement]

/-! ## The document -/

/-- The text of a document that sets fields, one on each line. -/
def lines (fields : List Field) : List Char :=
  fields.flatMap fun field => field.text ++ ['\n']

/-- The statements of lines that set fields are read one after the other. -/
theorem readStatements_lines {most : Nat} {done : List Statement} :
    readStatements (most + fields.length) done (lines fields ++ tail) =
      readStatements most ((fields.map Field.statement).reverse ++ done) tail := by
  induction fields generalizing done with
  | nil => rfl
  | cons field fields ih =>
      have hline : lines (field :: fields) ++ tail =
          field.text ++ '\n' :: (lines fields ++ tail) := by
        simp [lines]
      rw [hline, List.length_cons, ← Nat.add_assoc, readStatements_field field rfl, ih,
        List.map_cons, List.reverse_cons, List.append_assoc]
      rfl

/-! ## The table -/

/-- What has a name that no entry has is put behind the entries. -/
theorem put_of_notMem {key : String} {value : Value} {entries : Entries}
    (h : key ∉ entries.map Prod.fst) : put key value entries = entries ++ [(key, value)] := by
  induction entries with
  | nil => rfl
  | cons entry entries ih =>
      rw [List.map_cons, List.mem_cons, not_or] at h
      rw [put, if_neg (Ne.symm h.1), ih h.2, List.cons_append]

/-- A name that no entry has can be assigned in a table that a header may have opened. -/
theorem assign_of_notMem {key : String} {value : Value} {entries : Entries}
    (h : key ∉ entries.map Prod.fst) :
    assign ⟨[], key⟩ value entries = some (entries ++ [(key, value)]) := by
  have hlookup : entries.lookup key = none := by
    rw [List.lookup_eq_none_iff]
    intro entry hentry
    rw [bne_iff_ne]
    rintro rfl
    exact h (List.mem_map_of_mem hentry)
  show Option.map _ (if _ then none else some ((), put key value entries)) = _
  rw [if_neg (by simp [hlookup]), put_of_notMem h]
  rfl

/-- Fields with names of their own are put behind the entries of the open table, in their order. -/
theorem foldlM_run_fields {closed entries : Entries} {place : Place}
    (h : (entries.map Prod.fst ++ fields.map Field.name).Nodup) :
    (fields.map Field.statement).foldlM Draft.run ⟨closed, place, entries⟩ =
      some ⟨closed, place, entries ++ fields.map Field.entry⟩ := by
  induction fields generalizing entries with
  | nil => simp
  | cons field fields ih =>
      have hnew : field.name ∉ entries.map Prod.fst := by
        intro hmem
        exact (List.nodup_append.mp h).2.2 _ hmem _ (by simp) rfl
      have hrun : Draft.run ⟨closed, place, entries⟩ field.statement =
          some ⟨closed, place, entries ++ [field.entry]⟩ := by
        show (assign ⟨[], field.name⟩ _ entries).bind _ = _
        rw [assign_of_notMem hnew]
        rfl
      have hlater : ((entries ++ [field.entry]).map Prod.fst ++ fields.map Field.name).Nodup := by
        simpa [Field.entry] using h
      rw [List.map_cons, List.foldlM_cons, hrun, Option.bind_eq_bind, Option.bind_some, ih hlater]
      simp

/-- Fields with names of their own build a table of these fields. -/
theorem build_fields (h : (fields.map Field.name).Nodup) :
    build (fields.map Field.statement) = some (fields.map Field.entry) := by
  have hempty : (([] : Entries).map Prod.fst ++ fields.map Field.name).Nodup := h
  show ((fields.map Field.statement).foldlM Draft.run ⟨[], .root, []⟩).bind Draft.close = _
  rw [foldlM_run_fields hempty]
  rfl

/-- A document that does not begin with a byte order mark is read from its first character on. -/
theorem read_of_ne {text : String} (htext : text.toList = c :: chars) (hc : c ≠ '\ufeff') :
    read text = (readStatements (chars.length + 2) [] (c :: chars)).bind build := by
  unfold read
  rw [htext]
  split
  · rename_i heq
    exact absurd (List.cons.inj heq).1 hc
  · rfl

/-- There are at least as many characters as lines. -/
theorem length_le_length_lines (fields : List Field) : fields.length ≤ (lines fields).length := by
  induction fields with
  | nil => exact Nat.zero_le _
  | cons field fields ih =>
      rw [lines, List.flatMap_cons, ← lines, List.length_append, List.length_append,
        List.length_cons, List.length_singleton]
      omega

/-- A document that sets fields with names of their own, one on each line, is read as the table of
these fields. Its last line may end in any way that ends a document. -/
theorem read_fields (fields : List Field) {text : String} {last : Field}
    (htext : text.toList = lines fields ++ (last.text ++ tail)) (htail : readLineEnd tail = some [])
    (hnames : ((fields ++ [last]).map Field.name).Nodup) :
    read text = some ((fields ++ [last]).map Field.entry) := by
  have hfront : ∃ c rest, text.toList = c :: rest ∧ isBareKeyChar c = true := by
    rw [htext]
    cases fields with
    | nil => exact last.exists_text_append_eq tail
    | cons field fields =>
        rw [lines, List.flatMap_cons, List.append_assoc, List.append_assoc]
        exact field.exists_text_append_eq _
  obtain ⟨c, rest, hchars, hc⟩ := hfront
  -- There is a round for each line, one for the end, and some to spare.
  have hrounds : ∃ spare, rest.length + 2 = spare + 1 + 1 + fields.length := by
    have hlines := length_le_length_lines fields
    have hlength := congrArg List.length (hchars.symm.trans htext)
    rw [List.length_cons, List.length_append, List.length_append, Field.text,
      List.length_append, List.length_cons] at hlength
    exact ⟨rest.length - fields.length, by omega⟩
  obtain ⟨spare, hrounds⟩ := hrounds
  rw [read_of_ne hchars (ne_of_isBareKeyChar hc (by decide)), hrounds, ← hchars, htext,
    readStatements_lines, readStatements_field last htail]
  show build (last.statement :: ((fields.map Field.statement).reverse ++ [])).reverse = _
  rw [← build_fields hnames]
  simp

end AgeFile.Toml
