import AgeFile.Proofs.Error.NamedByte
import AgeFile.Proofs.Text.Quoted

/-!
# What the text of an error shows

An error is put into words from fixed words, numbers and quotations. Read `Error.Quotes` and
`Error.Numeric` first: the errors that quote a text, and those that hold words and numbers only.
`Error.Contained` is what is wanted of both, whatever stands in the text that is quoted.
`Error.Quotes.message_ne` says that different quotations never make the same text.
-/

namespace AgeFile

namespace Text

/-- The digits of a number are no controls. -/
theorem controlFree_toString (n : Nat) : ControlFree (toString n).toList := by
  intro c hc
  rw [toList_toString] at hc
  obtain ⟨digit, hlt, rfl⟩ := exists_digit_of_mem_toDigits (by decide) hc
  exact isControl_eq_false_iff.mp (digitChar_inside (by omega)).2.2.2

/-- The two digits of a byte are no controls. -/
theorem controlFree_hexByte (byte : UInt8) : ControlFree (hexByte byte).toList := by
  have hbyte := byte.toNat_lt
  have hhigh : byte.toNat / 16 < 16 := by omega
  have hlow : byte.toNat % 16 < 16 := by omega
  rw [toList_hexByte]
  exact List.forall_mem_cons.mpr ⟨isControl_eq_false_iff.mp (digitChar_inside hhigh).2.2.2,
    List.forall_mem_singleton.mpr (isControl_eq_false_iff.mp (digitChar_inside hlow).2.2.2)⟩

/-- A quotation holds no controls, whatever is quoted. -/
theorem controlFree_quote (text : String) : ControlFree (quote text).toList := by
  obtain ⟨inside, hinside, hquote⟩ := exists_spells_quote text
  have hmark : ControlFree ['"'] := by decide
  rw [hquote]
  exact controlFree_append_iff.mpr
    ⟨controlFree_append_iff.mpr ⟨hmark, hinside.controlFree⟩, hmark⟩

/-- Two texts without controls make one without controls. -/
theorem ControlFree.append {left right : String} (hleft : ControlFree left.toList)
    (hright : ControlFree right.toList) : ControlFree (left ++ right).toList := by
  rw [String.toList_append]
  exact controlFree_append_iff.mpr ⟨hleft, hright⟩

/-- A number between words without controls makes a text without controls. -/
theorem controlFree_counted {before after : String} (hbefore : ControlFree before.toList) (n : Nat)
    (hafter : ControlFree after.toList) : ControlFree (before ++ toString n ++ after).toList :=
  (hbefore.append (controlFree_toString n)).append hafter

end Text

open Text (ControlFree controlFree_counted controlFree_toString controlFree_hexByte
  controlFree_quote)

/-! ## Words and numbers -/

/-- The text of a fault holds no controls. -/
theorem Base64.Fault.controlFree_message (fault : Base64.Fault) :
    ControlFree fault.message.toList := by
  have hplace : ∀ (before : String) (byte : UInt8) (offset : Nat), ControlFree before.toList →
      ControlFree
        (before ++ toString byte.toNat ++ ", offset " ++ toString offset ++ ".").toList := by
    intro before byte offset hbefore
    have hbyte : ControlFree (before ++ toString byte.toNat ++ ", offset ").toList :=
      controlFree_counted hbefore byte.toNat (by decide)
    exact controlFree_counted hbyte offset (by decide)
  cases fault with
  | symbol byte offset => exact hplace "Invalid symbol " byte offset (by decide)
  | lastSymbol byte offset => exact hplace "Invalid last symbol " byte offset (by decide)
  | length count =>
      show ControlFree ("Invalid input length: " ++ toString count).toList
      exact .append (by decide) (controlFree_toString count)
  | padding => decide

/-- The text of a defect holds no controls, unless a caller described it. -/
theorem Defect.controlFree_message {defect : Defect}
    (hdescribed : ∀ text, defect ≠ .described text) : ControlFree defect.message.toList := by
  cases defect with
  | markerWithoutSpace => decide
  | emptyToken => decide
  | tokenByte found =>
      show ControlFree ("invalid byte 0x" ++ Text.hexByte found ++ " in stanza token").toList
      exact .append (.append (by decide) (controlFree_hexByte found)) (by decide)
  | missingType => decide
  | longBodyLine length =>
      show ControlFree ("stanza body line of " ++ toString length ++ " chars exceeds " ++
        toString Format.bodyLineLength).toList
      exact .append (controlFree_counted (by decide) length (by decide)) (controlFree_toString _)
  | body fault =>
      show ControlFree ("stanza body: " ++ fault.message).toList
      exact .append (by decide) fault.controlFree_message
  | stanzaOrTerminator found =>
      show ControlFree ("expected stanza or " ++ Text.quote Format.terminator ++
        ", found byte 0x" ++ Text.hexByte found).toList
      exact .append (.append (.append (by decide) (controlFree_quote _)) (by decide))
        (controlFree_hexByte found)
  | macSpace found =>
      show ControlFree ("expected space before MAC, found byte 0x" ++ Text.hexByte found).toList
      exact .append (by decide) (controlFree_hexByte found)
  | macLineFeed found =>
      show ControlFree
        ("expected line feed after MAC, found byte 0x" ++ Text.hexByte found).toList
      exact .append (by decide) (controlFree_hexByte found)
  | mac fault =>
      show ControlFree ("header MAC: " ++ fault.message).toList
      exact .append (by decide) fault.controlFree_message
  | macLength length =>
      show ControlFree ("header MAC is " ++ toString length ++ " bytes, expected " ++
        toString Format.macSize).toList
      exact .append (controlFree_counted (by decide) length (by decide)) (controlFree_toString _)
  | described text => exact absurd rfl (hdescribed text)

namespace Error

variable {e other : Error} {text otherText : String}

/-- The errors of reading whose text consists of fixed words and of numbers. -/
inductive Numeric : Error → Prop
  | malformed {offset : Nat} {defect : Defect} (hdescribed : ∀ text, defect ≠ .described text) :
      Numeric (.malformed offset defect)
  | truncated {needed available : Nat} : Numeric (.truncated needed available)
  | headerTooLarge {limit : Nat} : Numeric (.headerTooLarge limit)
  | tooManyStanzas {limit : Nat} : Numeric (.tooManyStanzas limit)
  | macNotFound : Numeric .macNotFound

/-- The errors that quote a text: a first line that is no version line, and a type or an argument
that cannot be written. -/
inductive Quotes : Error → String → Prop
  | version (line : String) : Quotes (.unsupportedVersion line) line
  | tag (text : String) : Quotes (.invalidStanza (.tag text)) text
  | argument (text : String) : Quotes (.invalidStanza (.argument text)) text

/-- What is quoted in the text of an error does not get out of its quotation: the text holds no
control, and a text that is quoted stands between two marks at the end, with every mark and every
backslash in it escaped, and no mark before it. -/
structure Contained (e : Error) : Prop where
  controlFree : ControlFree e.message.toList
  quoted : ∀ text, e.Quotes text → ∃ lead inside,
    e.message.toList = lead ++ '"' :: inside ++ ['"'] ∧ '"' ∉ lead ∧
      Text.Spells text.toList inside ∧ Text.Escaped inside

/-- The text of an error of words and numbers holds no controls. -/
theorem Numeric.controlFree_message (h : e.Numeric) : ControlFree e.message.toList := by
  cases h with
  | @malformed offset defect hdescribed =>
      show ControlFree
        ("malformed header at byte " ++ toString offset ++ ": " ++ defect.message).toList
      exact .append (controlFree_counted (by decide) offset (by decide))
        (Defect.controlFree_message hdescribed)
  | @truncated needed available =>
      show ControlFree ("truncated input: need " ++ toString needed ++ " bytes, " ++
        toString available ++ " available").toList
      exact controlFree_counted (controlFree_counted (by decide) needed (by decide)) available
        (by decide)
  | @headerTooLarge limit =>
      show ControlFree ("header exceeds " ++ toString limit ++ " bytes").toList
      exact controlFree_counted (by decide) limit (by decide)
  | @tooManyStanzas limit =>
      show ControlFree ("header has more than " ++ toString limit ++ " stanzas").toList
      exact controlFree_counted (by decide) limit (by decide)
  | macNotFound => decide

/-- An error of words and numbers quotes nothing. -/
theorem Numeric.not_quotes (h : e.Numeric) (text : String) : ¬ e.Quotes text := by
  intro hquotes
  cases hquotes <;> cases h

/-! ## Quotations -/

/-- A quotation stands at the end of a text, behind words without a mark. -/
theorem Quotes.exists_lead (h : e.Quotes text) : ∃ lead : String,
    e.message = lead ++ Text.quote text ∧ ControlFree lead.toList ∧ '"' ∉ lead.toList := by
  cases h with
  | version => exact ⟨"unsupported header version: ", rfl, by decide, by decide⟩
  | tag =>
      refine ⟨"invalid stanza: invalid stanza type ", ?_, by decide, by decide⟩
      show "invalid stanza: " ++ ("invalid stanza type " ++ Text.quote text) = _
      rw [← String.append_assoc]
      rfl
  | argument =>
      refine ⟨"invalid stanza: invalid stanza argument ", ?_, by decide, by decide⟩
      show "invalid stanza: " ++ ("invalid stanza argument " ++ Text.quote text) = _
      rw [← String.append_assoc]
      rfl

/-- An error that quotes a text contains it. -/
theorem Quotes.contained (h : e.Quotes text) : e.Contained := by
  refine ⟨?_, ?_⟩
  · obtain ⟨lead, hmessage, hlead, -⟩ := h.exists_lead
    rw [hmessage]
    exact hlead.append (controlFree_quote text)
  · intro quoted hquotes
    obtain ⟨lead, hmessage, -, hmark⟩ := hquotes.exists_lead
    obtain ⟨inside, hinside, hquote⟩ := Text.exists_spells_quote quoted
    refine ⟨lead.toList, inside, ?_, hmark, hinside, hinside.escaped⟩
    rw [hmessage, String.toList_append, hquote, List.append_assoc]

/-- An error of words and numbers contains what it quotes, which is nothing. -/
theorem Numeric.contained (h : e.Numeric) : e.Contained :=
  ⟨h.controlFree_message, fun text hquotes => absurd hquotes (h.not_quotes text)⟩

/-- Errors that quote different texts, for the same reason or not, have different texts. -/
theorem Quotes.message_ne (h : e.Quotes text) (hother : other.Quotes otherText)
    (hne : text ≠ otherText) : e.message ≠ other.message := by
  intro heq
  obtain ⟨lead, inside, hmessage, hmark, hinside, -⟩ := h.contained.quoted text h
  obtain ⟨otherLead, otherInside, hotherMessage, hotherMark, hotherInside, -⟩ :=
    hother.contained.quoted otherText hother
  rw [heq, hotherMessage, List.append_assoc, List.append_assoc] at hmessage
  -- Both quotations begin at the first mark, and from there on the texts agree.
  obtain ⟨-, htail⟩ := Text.eq_of_append_cons hotherMark hmark hmessage
  exact hne (String.toList_inj.mp (hinside.unique hotherInside htail.symm).1)

end Error

end AgeFile
