import AgeFile.Text.Hex
import AgeFile.Text.Quoted
import Mathlib.Data.List.Basic

/-!
# What stands between quotation marks

Read `Spelling` first: it lists how a character is written between quotation marks, and `Spells`
continues it to a whole text. Text that is written so has three properties, whatever its characters
are: `Spells.controlFree` says that it holds no control, `Spells.escaped` that no mark and no
backslash in it stands alone, so that the quotation ends where it seems to end, and `Spells.unique`
that it is the spelling of one text only.
-/

namespace AgeFile.Text

/-! ## Controls -/

/-- No character of a text is a control, U+0000 to U+001F or U+007F to U+009F. -/
def ControlFree (text : List Char) : Prop :=
  ∀ c ∈ text, 0x1f < c.toNat ∧ (c.toNat < 0x7f ∨ 0x9f < c.toNat)

/-- Whether a text has a control is decided character by character. -/
instance (text : List Char) : Decidable (ControlFree text) :=
  List.decidableBAll _ text

variable {c d : Char} {text other written rest piece : List Char}

/-- What is no control has a code point of these. -/
theorem isControl_eq_false_iff :
    isControl c = false ↔ 0x1f < c.toNat ∧ (c.toNat < 0x7f ∨ 0x9f < c.toNat) := by
  simp only [isControl, Bool.or_eq_false_iff, Bool.and_eq_false_iff, decide_eq_false_iff_not]
  omega

/-- Two texts together have no control exactly when neither of them has. -/
theorem controlFree_append_iff :
    ControlFree (text ++ other) ↔ ControlFree text ∧ ControlFree other :=
  List.forall_mem_append

/-- What stands for itself between quotation marks is no control. -/
theorem isControl_of_isPlain (h : isPlain c = true) : isControl c = false := by
  unfold isPlain at h
  split at h
  · rename_i hascii
    rw [isControl_eq_false_iff]
    have hspace : 0x20 ≤ c.toNat := of_decide_eq_true h
    omega
  · simp only [Bool.and_eq_true, Bool.not_eq_true'] at h
    exact h.1.1.1

/-- Texts that go on behind the same character agree up to it and behind it, if it stands nowhere
before. -/
theorem eq_of_append_cons {otherRest : List Char} (htext : c ∉ text) (hother : c ∉ other)
    (heq : text ++ c :: rest = other ++ c :: otherRest) : text = other ∧ rest = otherRest := by
  induction text generalizing other with
  | nil =>
      cases other with
      | nil => exact ⟨rfl, (List.cons.inj heq).2⟩
      | cons d other =>
          obtain ⟨rfl, -⟩ := List.cons.inj heq
          exact absurd List.mem_cons_self hother
  | cons e text ih =>
      cases other with
      | nil =>
          obtain ⟨rfl, -⟩ := List.cons.inj heq
          exact absurd List.mem_cons_self htext
      | cons d other =>
          obtain ⟨rfl, htail⟩ := List.cons.inj heq
          rw [List.mem_cons, not_or] at htext hother
          obtain ⟨rfl, hrest⟩ := ih htext.2 hother.2 htail
          exact ⟨rfl, hrest⟩

/-! ## Digits -/

/-- A number is written with the digits of its base. -/
theorem exists_digit_of_mem_toDigits {base n : Nat} (hbase : 1 < base)
    (h : c ∈ Nat.toDigits base n) : ∃ digit < base, c = Nat.digitChar digit := by
  induction n using Nat.strongRecOn with
  | ind n ih =>
      rw [Nat.toDigits_eq_if hbase] at h
      split at h
      · rename_i hlt
        exact ⟨n, hlt, List.mem_singleton.mp h⟩
      · rename_i hle
        rcases List.mem_append.mp h with hfront | hlast
        · exact ih (n / base) (Nat.div_lt_self (by omega) hbase) hfront
        · exact ⟨n % base, Nat.mod_lt n (by omega), List.mem_singleton.mp hlast⟩

/-- Two digits or more are not a single one. -/
theorem toDigits_append_ne {n : Nat} : Nat.toDigits 16 n ++ [c] ≠ [d] := by
  intro h
  have hlength := congrArg List.length h
  have hpos := Nat.length_toDigits_pos (b := 16) (n := n)
  rw [List.length_append, List.length_singleton, List.length_singleton] at hlength
  omega

/-- Different numbers have different hexadecimal digits. -/
theorem toDigits_inj {m n : Nat} (h : Nat.toDigits 16 m = Nat.toDigits 16 n) : m = n := by
  have hbase : 1 < 16 := by decide
  induction m using Nat.strongRecOn generalizing n with
  | ind m ih =>
      rw [Nat.toDigits_eq_if hbase, Nat.toDigits_eq_if (n := n) hbase] at h
      split at h <;> split at h
      · rename_i hm hn
        exact digitChar_inj hm hn (List.singleton_inj.mp h)
      · exact absurd h.symm toDigits_append_ne
      · exact absurd h toDigits_append_ne
      · obtain ⟨hfront, hlast⟩ := List.append_inj' h rfl
        have hquotient := ih (m / 16) (by omega) hfront
        have hremainder := digitChar_inj (Nat.mod_lt m (by decide)) (Nat.mod_lt n (by decide))
          (List.singleton_inj.mp hlast)
        omega

/-- A digit is none of the characters that a quotation is read by. -/
theorem digitChar_inside {digit : Nat} (h : digit < 16) :
    Nat.digitChar digit ≠ '"' ∧ Nat.digitChar digit ≠ '\\' ∧ Nat.digitChar digit ≠ '\x7d' ∧
      isControl (Nat.digitChar digit) = false := by
  have hdigits : ∀ digit < 16, Nat.digitChar digit ≠ '"' ∧ Nat.digitChar digit ≠ '\\' ∧
      Nat.digitChar digit ≠ '\x7d' ∧ isControl (Nat.digitChar digit) = false := by decide
  exact hdigits digit h

/-- The digits of a code point are none of these characters. -/
theorem digit_of_mem_toDigits {n : Nat} (h : d ∈ Nat.toDigits 16 n) :
    d ≠ '"' ∧ d ≠ '\\' ∧ d ≠ '\x7d' ∧ isControl d = false := by
  obtain ⟨digit, hlt, rfl⟩ := exists_digit_of_mem_toDigits (by decide) h
  exact digitChar_inside hlt

/-! ## Spelling -/

/-- The letters that stand behind a backslash, each with the character that it stands for. -/
def letters : List (Char × Char) :=
  [('"', '"'), ('\\', '\\'), ('0', '\x00'), ('t', '\t'), ('n', '\n'), ('r', '\r')]

/-- How a character is written between quotation marks. -/
inductive Spelling (c : Char) : List Char → Prop
  /-- A character that is no mark, no backslash and no control stands for itself. -/
  | plain (hmark : c ≠ '"') (hbackslash : c ≠ '\\') (hcontrol : isControl c = false) :
      Spelling c [c]
  /-- A letter behind a backslash stands for it. -/
  | letter {letter : Char} (hletter : (letter, c) ∈ letters) : Spelling c ['\\', letter]
  /-- Its code point is written out behind a backslash. -/
  | codePoint : Spelling c (escapeCodePoint c)

/-- A text is spelled character by character. -/
inductive Spells : (text written : List Char) → Prop
  | nil : Spells [] []
  | cons {c : Char} {text piece written : List Char} (hpiece : Spelling c piece)
      (hrest : Spells text written) : Spells (c :: text) (piece ++ written)

/-- Every mark and every backslash of a text is escaped: reading from the front, and taking a
backslash together with the character behind it, no mark is met alone. -/
inductive Escaped : List Char → Prop
  | nil : Escaped []
  | plain {c : Char} {rest : List Char} (hmark : c ≠ '"') (hbackslash : c ≠ '\\')
      (hrest : Escaped rest) : Escaped (c :: rest)
  | escape {c : Char} {rest : List Char} (hrest : Escaped rest) : Escaped ('\\' :: c :: rest)

/-- What `escapeChar` writes for a character is a spelling of it. -/
theorem spelling_escapeChar (c : Char) : Spelling c (escapeChar c) := by
  unfold escapeChar
  split_ifs with hmark hbackslash hnull htab hfeed hreturn hplain
  · obtain rfl := hmark
    exact .letter (by decide)
  · obtain rfl := hbackslash
    exact .letter (by decide)
  · obtain rfl := hnull
    exact .letter (by decide)
  · obtain rfl := htab
    exact .letter (by decide)
  · obtain rfl := hfeed
    exact .letter (by decide)
  · obtain rfl := hreturn
    exact .letter (by decide)
  · exact .plain hmark hbackslash (isControl_of_isPlain hplain)
  · exact .codePoint

/-- What stands between the marks of a quotation spells the text that is quoted. -/
theorem exists_spells_quote (text : String) :
    ∃ inside, Spells text.toList inside ∧ (quote text).toList = '"' :: inside ++ ['"'] := by
  refine ⟨text.toList.flatMap escapeChar, ?_, ?_⟩
  · induction text.toList with
    | nil => exact .nil
    | cons c chars ih => exact .cons (spelling_escapeChar c) ih
  · rw [quote, String.toList_ofList]

/-! ## What is spelled -/

/-- A code point between braces, with what follows it. -/
theorem escapeCodePoint_append (c : Char) (rest : List Char) :
    escapeCodePoint c ++ rest =
      '\\' :: 'u' :: '\x7b' :: (Nat.toDigits 16 c.toNat ++ '\x7d' :: rest) := by
  simp [escapeCodePoint]

/-- A letter is no control, and it is not the one that begins a code point. -/
theorem isControl_of_mem_letters (h : (d, c) ∈ letters) : isControl d = false ∧ d ≠ 'u' := by
  have hletters : ∀ entry ∈ letters, isControl entry.1 = false ∧ entry.1 ≠ 'u' := by decide
  exact hletters (d, c) h

/-- A letter stands for one character. -/
theorem eq_of_mem_letters {letter : Char} (hc : (letter, c) ∈ letters)
    (hd : (letter, d) ∈ letters) : c = d := by
  have hletters : ∀ left ∈ letters, ∀ right ∈ letters, left.1 = right.1 → left.2 = right.2 := by
    decide
  exact hletters (letter, c) hc (letter, d) hd rfl

/-- What spells a character holds no control. -/
theorem Spelling.controlFree (h : Spelling c piece) : ControlFree piece := by
  intro d hd
  rw [← isControl_eq_false_iff]
  cases h with
  | plain hmark hbackslash hcontrol =>
      obtain rfl := List.mem_singleton.mp hd
      exact hcontrol
  | letter hletter =>
      rcases List.mem_pair.mp hd with rfl | rfl
      · rfl
      · exact (isControl_of_mem_letters hletter).1
  | codePoint =>
      rcases List.mem_append.mp hd with hfront | hlast
      · rcases List.mem_append.mp hfront with hopen | hdigit
        · have hbegin : ControlFree ['\\', 'u', '\x7b'] := by decide
          exact isControl_eq_false_iff.mpr (hbegin d hopen)
        · exact (digit_of_mem_toDigits hdigit).2.2.2
      · obtain rfl := List.mem_singleton.mp hlast
        rfl

/-- What spells a text holds no control. -/
theorem Spells.controlFree (h : Spells text written) : ControlFree written := by
  induction h with
  | nil => simp [ControlFree]
  | cons hpiece _ ih => exact controlFree_append_iff.mpr ⟨hpiece.controlFree, ih⟩

/-- Characters that are no marks and no backslashes stand before escaped text. -/
theorem Escaped.append (hfront : ∀ c ∈ text, c ≠ '"' ∧ c ≠ '\\') (hrest : Escaped rest) :
    Escaped (text ++ rest) := by
  induction text with
  | nil => exact hrest
  | cons c text ih =>
      obtain ⟨hc, htext⟩ := List.forall_mem_cons.mp hfront
      exact .plain hc.1 hc.2 (ih htext)

/-- What spells a character leaves no mark and no backslash alone. -/
theorem Spelling.escaped (h : Spelling c piece) (hrest : Escaped rest) :
    Escaped (piece ++ rest) := by
  cases h with
  | plain hmark hbackslash _ => exact .plain hmark hbackslash hrest
  | letter _ => exact .escape hrest
  | codePoint =>
      have hdigits : ∀ d ∈ Nat.toDigits 16 c.toNat, d ≠ '"' ∧ d ≠ '\\' := fun d hd =>
        ⟨(digit_of_mem_toDigits hd).1, (digit_of_mem_toDigits hd).2.1⟩
      have hclosed : Escaped ('\x7d' :: rest) := .plain (by decide) (by decide) hrest
      have hopened := Escaped.append hdigits hclosed
      rw [escapeCodePoint_append]
      exact .escape (.plain (by decide) (by decide) hopened)

/-- What spells a text leaves no mark and no backslash alone. -/
theorem Spells.escaped (h : Spells text written) : Escaped written := by
  induction h with
  | nil => exact .nil
  | cons hpiece _ ih => exact hpiece.escaped ih

/-- Whatever follows, what is written spells one character, and it is clear where the spelling
ends. -/
theorem Spelling.unique {otherPiece otherRest : List Char} (h : Spelling c piece)
    (hother : Spelling d otherPiece) (heq : piece ++ rest = otherPiece ++ otherRest) :
    c = d ∧ rest = otherRest := by
  -- The first character tells a plain one from a backslash, and the second a letter from a code.
  cases h with
  | plain hmark hbackslash _ =>
      cases hother with
      | plain _ _ _ => exact List.cons.inj heq
      | letter _ => exact absurd (List.cons.inj heq).1 hbackslash
      | codePoint =>
          rw [escapeCodePoint_append] at heq
          exact absurd (List.cons.inj heq).1 hbackslash
  | letter hletter =>
      cases hother with
      | plain _ hbackslash _ => exact absurd (List.cons.inj heq).1.symm hbackslash
      | letter hotherLetter =>
          obtain ⟨-, heq⟩ := List.cons.inj heq
          obtain ⟨rfl, hrest⟩ := List.cons.inj heq
          exact ⟨eq_of_mem_letters hletter hotherLetter, hrest⟩
      | codePoint =>
          rw [escapeCodePoint_append] at heq
          obtain ⟨-, heq⟩ := List.cons.inj heq
          exact absurd (List.cons.inj heq).1 (isControl_of_mem_letters hletter).2
  | codePoint =>
      rw [escapeCodePoint_append] at heq
      cases hother with
      | plain _ hbackslash _ => exact absurd (List.cons.inj heq).1.symm hbackslash
      | letter hletter =>
          obtain ⟨-, heq⟩ := List.cons.inj heq
          exact absurd (List.cons.inj heq).1.symm (isControl_of_mem_letters hletter).2
      | codePoint =>
          rw [escapeCodePoint_append] at heq
          simp only [List.cons.injEq, true_and] at heq
          -- No digit is a closing brace, so both numbers end at the first one.
          have hbrace : ∀ n, '\x7d' ∉ Nat.toDigits 16 n := fun n hmem =>
            (digit_of_mem_toDigits hmem).2.2.1 rfl
          obtain ⟨hdigits, hrest⟩ := eq_of_append_cons (hbrace _) (hbrace _) heq
          exact ⟨Char.toNat_inj.mp (toDigits_inj hdigits), hrest⟩

/-- What spells a character does not begin with a mark. -/
theorem Spelling.head_ne (h : Spelling c piece) : piece ++ rest ≠ '"' :: other := by
  intro heq
  cases h with
  | plain hmark _ _ => exact hmark (List.cons.inj heq).1
  | letter _ => exact absurd (List.cons.inj heq).1 (by decide)
  | codePoint => exact absurd (List.cons.inj heq).1 (by decide)

/-- A quotation that has been opened quotes one text, and it is clear where it ends, whatever
follows. -/
theorem Spells.unique {otherText otherWritten otherRest : List Char} (h : Spells text written)
    (hother : Spells otherText otherWritten)
    (heq : written ++ '"' :: rest = otherWritten ++ '"' :: otherRest) :
    text = otherText ∧ rest = otherRest := by
  induction h generalizing otherText otherWritten with
  | nil =>
      cases hother with
      | nil => exact ⟨rfl, (List.cons.inj heq).2⟩
      | cons hpiece _ =>
          rw [List.append_assoc] at heq
          exact absurd heq.symm hpiece.head_ne
  | cons hpiece _ ih =>
      rw [List.append_assoc] at heq
      cases hother with
      | nil => exact absurd heq hpiece.head_ne
      | cons hotherPiece hotherRest =>
          rw [List.append_assoc] at heq
          obtain ⟨rfl, heq⟩ := hpiece.unique hotherPiece heq
          obtain ⟨rfl, hrest⟩ := ih hotherRest heq
          exact ⟨rfl, hrest⟩

end AgeFile.Text
