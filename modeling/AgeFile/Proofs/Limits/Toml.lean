import AgeFile.Limits.Toml
import AgeFile.Proofs.Toml.Field

/-!
# Limits that are written and read

Read `ofToml_of_read` first: what a document says about limits depends on its table alone, through
the two numbers that are read from it. `ofToml_toToml?` says what becomes of limits that are
written, of documents that set only one of the two numbers, and of the order of the lines; and that
no document at all yields limits which allow no header.
-/

namespace AgeFile.HeaderLimits

variable {text : String} {entries : Toml.Entries} {key : String} {missing n length stanzas : Nat}
  {limits : HeaderLimits}

/-! ## From a table -/

/-- A field that is missing has its default. -/
theorem field?_of_none (h : entries.lookup key = none) :
    field? entries key missing = some missing := by
  rw [field?, h]

/-- A field that is a number from zero on has this number. -/
theorem field?_of_number (h : entries.lookup key = some (.integer (.ofNat n))) :
    field? entries key missing = some n := by
  rw [field?, h]

/-- What is read from a document depends on the two numbers in its table. -/
theorem ofToml_of_read (hread : Toml.read text = some entries)
    (hlength : field? entries lengthKey ({} : HeaderLimits).maxHeaderLength = some length)
    (hstanzas : field? entries stanzasKey ({} : HeaderLimits).maxStanzas = some stanzas) :
    ofToml text =
      if length = 0 then .error (.config .zeroHeaderLength) else .ok ⟨length, stanzas⟩ := by
  simp only [ofToml, hread, hlength, hstanzas]

/-- Limits that are read allow a header of some length. -/
theorem one_le_of_ofToml (h : ofToml text = .ok limits) : 1 ≤ limits.maxHeaderLength := by
  simp only [ofToml] at h
  split at h
  · exact absurd h (by simp)
  · split at h
    · split at h
      · exact absurd h (by simp)
      · obtain rfl := Except.ok.inj h
        exact Nat.one_le_iff_ne_zero.mpr ‹_›
    · exact absurd h (by simp)

/-- A document that sets only the number of stanzas leaves the length at its default. -/
theorem ofToml_of_stanzas (hread : Toml.read text = some entries)
    (hlength : entries.lookup lengthKey = none)
    (hstanzas : entries.lookup stanzasKey = some (.integer (.ofNat n))) :
    ofToml text = .ok { maxStanzas := n } := by
  rw [ofToml_of_read hread (field?_of_none hlength) (field?_of_number hstanzas)]
  rfl

/-- A document that sets only the length leaves the number of stanzas at its default. -/
theorem ofToml_of_length (hread : Toml.read text = some entries)
    (hstanzas : entries.lookup stanzasKey = none)
    (hlength : entries.lookup lengthKey = some (.integer (.ofNat n))) (hpos : 1 ≤ n) :
    ofToml text = .ok { maxHeaderLength := n } := by
  rw [ofToml_of_read hread (field?_of_number hlength) (field?_of_none hstanzas)]
  exact if_neg (by omega)

/-! ## From lines -/

/-- The length as a field of a document. -/
def lengthField (length : Nat) (h : length < 0x8000000000000000) : Toml.Field :=
  ⟨lengthKey, length, by decide, by decide, h⟩

/-- The number of stanzas as a field of a document. -/
def stanzasField (stanzas : Nat) (h : stanzas < 0x8000000000000000) : Toml.Field :=
  ⟨stanzasKey, stanzas, by decide, by decide, h⟩

/-- What sets a field, with what ends its line. -/
def setting (key : String) (value : Nat) (ending : String) : String :=
  key ++ " = " ++ toString value ++ ending

/-- What sets a field is the text of the field and what ends its line. -/
theorem toList_setting (field : Toml.Field) (ending : String) :
    (setting field.name field.value ending).toList = field.text ++ ending.toList := by
  simp [setting, Toml.Field.text]

/-- A line is a setting that a line feed ends. -/
theorem setting_newline (key : String) (value : Nat) : setting key value "\n" = line key value :=
  rfl

/-- A document of one line has one field. -/
theorem read_setting (field : Toml.Field) {ending : String}
    (hend : Toml.readLineEnd ending.toList = some []) :
    Toml.read (setting field.name field.value ending) = some [field.entry] :=
  Toml.read_fields [] (toList_setting field ending) hend (List.nodup_singleton _)

/-- The last line may end in blanks, a comment and a carriage return. -/
example : Toml.readLineEnd "  # few\r\n".toList = some [] := by decide

/-- A document of two lines has two fields, in the order of the lines. -/
theorem read_line_setting (first second : Toml.Field) (hne : first.name ≠ second.name)
    {ending : String} (hend : Toml.readLineEnd ending.toList = some []) :
    Toml.read (line first.name first.value ++ setting second.name second.value ending) =
      some [first.entry, second.entry] := by
  have htext : (line first.name first.value ++
      setting second.name second.value ending).toList =
        Toml.lines [first] ++ (second.text ++ ending.toList) := by
    rw [← setting_newline, String.toList_append, toList_setting, toList_setting]
    simp [Toml.lines]
  exact Toml.read_fields [first] htext hend (by simpa using hne)

/-- A document of two lines sets both numbers, whichever line is the first. -/
theorem ofToml_line_setting (hlength : length < 0x8000000000000000)
    (hstanzas : stanzas < 0x8000000000000000) (ending : String)
    (hend : Toml.readLineEnd ending.toList = some []) :
    ofToml (line lengthKey length ++ setting stanzasKey stanzas ending) =
        (if length = 0 then .error (.config .zeroHeaderLength) else .ok ⟨length, stanzas⟩) ∧
      ofToml (line stanzasKey stanzas ++ setting lengthKey length ending) =
        (if length = 0 then .error (.config .zeroHeaderLength) else .ok ⟨length, stanzas⟩) := by
  have hne : lengthKey ≠ stanzasKey := by decide
  have hlengthFirst := read_line_setting (lengthField length hlength)
    (stanzasField stanzas hstanzas) hne hend
  have hstanzasFirst := read_line_setting (stanzasField stanzas hstanzas)
    (lengthField length hlength) hne.symm hend
  exact ⟨ofToml_of_read hlengthFirst (field?_of_number rfl) (field?_of_number rfl),
    ofToml_of_read hstanzasFirst (field?_of_number rfl) (field?_of_number rfl)⟩

/-- Limits survive being written and read, as long as they allow a header of some length and neither
number passes the integers of TOML; limits that allow none are refused. The two lines may stand in
either order. A document that sets one of the numbers, in one line or in any other way, leaves the
other at its default. Whatever a document says, the limits that are read from it allow a header of
some length. -/
theorem ofToml_toToml? :
    (∀ limits : HeaderLimits, limits.maxHeaderLength < 0x8000000000000000 →
      limits.maxStanzas < 0x8000000000000000 → ∃ text, limits.toToml? = some text ∧
        (1 ≤ limits.maxHeaderLength → ofToml text = .ok limits) ∧
        (limits.maxHeaderLength = 0 → ofToml text = .error (.config .zeroHeaderLength)) ∧
        ∀ ending, Toml.readLineEnd ending.toList = some [] →
          ofToml (line lengthKey limits.maxHeaderLength ++
            setting stanzasKey limits.maxStanzas ending) = ofToml text ∧
          ofToml (line stanzasKey limits.maxStanzas ++
            setting lengthKey limits.maxHeaderLength ending) = ofToml text) ∧
    (∀ n < 0x8000000000000000, ∀ ending, Toml.readLineEnd ending.toList = some [] →
      ofToml (setting stanzasKey n ending) = .ok { maxStanzas := n } ∧
      (1 ≤ n → ofToml (setting lengthKey n ending) = .ok { maxHeaderLength := n })) ∧
    (∀ text entries n, Toml.read text = some entries →
      (entries.lookup lengthKey = none →
        entries.lookup stanzasKey = some (.integer (.ofNat n)) →
          ofToml text = .ok { maxStanzas := n }) ∧
      (entries.lookup stanzasKey = none →
        entries.lookup lengthKey = some (.integer (.ofNat n)) → 1 ≤ n →
          ofToml text = .ok { maxHeaderLength := n })) ∧
    ∀ text limits, ofToml text = .ok limits → 1 ≤ limits.maxHeaderLength := by
  refine ⟨fun limits hlength hstanzas => ?_, fun n hn ending hend => ?_,
    fun text entries n hread => ?_, fun text limits => one_le_of_ofToml⟩
  · obtain ⟨hwritten, -⟩ := ofToml_line_setting hlength hstanzas "\n" rfl
    rw [setting_newline] at hwritten
    refine ⟨_, if_pos ⟨hlength, hstanzas⟩, fun hpos => ?_, fun hzero => ?_,
      fun ending hend => ?_⟩
    · rw [hwritten, if_neg (by omega)]
    · rw [hwritten, if_pos hzero]
    · obtain ⟨hforward, hbackward⟩ := ofToml_line_setting hlength hstanzas ending hend
      exact ⟨hforward.trans hwritten.symm, hbackward.trans hwritten.symm⟩
  · exact ⟨ofToml_of_stanzas (read_setting (stanzasField n hn) hend) rfl rfl,
      fun hpos => ofToml_of_length (read_setting (lengthField n hn) hend) rfl rfl hpos⟩
  · exact ⟨ofToml_of_stanzas hread, ofToml_of_length hread⟩

end AgeFile.HeaderLimits
