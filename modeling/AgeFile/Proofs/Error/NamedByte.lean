import AgeFile.Error

/-!
# The byte that a defect names

Some defects are about one byte, and their text shows it as two hexadecimal digits after the mark
`0x`. Read `Defect.Names` first: it says, of the text alone, that it names a byte.
`found?_eq_of_names` says that a text names no byte but the one that the defect is about. The
argument is that the mark stands in no text twice, and in no text that is not about a byte
(`afterMark` finds the first one).
-/

namespace AgeFile

/-- The text of a defect names a byte: as one that cannot stand in a token, or as the one that was
found where something else belongs. -/
def Defect.Names (defect : Defect) (byte : UInt8) : Prop :=
  ∃ before after,
    defect.message =
        before ++ "invalid byte 0x" ++ Text.hexByte byte ++ " in stanza token" ++ after ∨
      defect.message = before ++ "found byte 0x" ++ Text.hexByte byte ++ after

/-- The byte that a defect is about. -/
def Defect.found? : Defect → Option UInt8
  | .tokenByte found | .stanzaOrTerminator found => some found
  | .macSpace found | .macLineFeed found => some found
  | _ => none

namespace Text

/-- What follows the first mark of hexadecimal digits in a text. -/
def afterMark : List Char → Option (List Char)
  | [] => none
  | c :: rest => if c = '0' ∧ rest.head? = some 'x' then some rest.tail else afterMark rest

variable {text before rest found : List Char} {byte other : UInt8}

/-- Where the mark stands, one is found. -/
theorem afterMark_mark_ne_none (before rest : List Char) :
    afterMark (before ++ '0' :: 'x' :: rest) ≠ none := by
  induction before with
  | nil => simp [afterMark]
  | cons c before ih =>
      rw [List.cons_append, afterMark]
      split
      · simp
      · exact ih

/-- Where a text has one mark, the mark stands where it is found. -/
theorem eq_of_afterMark (h : afterMark (before ++ '0' :: 'x' :: rest) = some found)
    (honce : afterMark found = none) : rest = found := by
  induction before with
  | nil => simpa [afterMark] using h
  | cons c before ih =>
      rw [List.cons_append, afterMark] at h
      split at h
      · rename_i hmark
        obtain rfl := Option.some.inj h
        cases before with
        | nil => exact absurd hmark.2 (by simp)
        | cons d before =>
            -- The mark that was found stands before this one, so another one follows it.
            exact absurd honce (afterMark_mark_ne_none before rest)
      · exact ih h

/-- Where a text ends with its only mark, what is written behind it follows the mark. -/
theorem afterMark_append_of_mark (h : afterMark text = some []) (rest : List Char) :
    afterMark (text ++ rest) = some rest := by
  induction text with
  | nil => exact absurd h (by simp [afterMark])
  | cons c text ih =>
      cases text with
      | nil => exact absurd h (by simp [afterMark])
      | cons d text =>
          rw [afterMark, List.head?_cons] at h
          rw [List.cons_append, afterMark, List.cons_append, List.head?_cons]
          split at h
          · rename_i hmark
            rw [if_pos hmark]
            obtain rfl : text = [] := Option.some.inj h
            rfl
          · rename_i hmark
            rw [if_neg hmark]
            exact ih h

/-- Characters without the mark's second one, and not before it, are passed over. -/
theorem afterMark_append (htext : 'x' ∉ text) (hrest : rest.head? ≠ some 'x') :
    afterMark (text ++ rest) = afterMark rest := by
  induction text with
  | nil => rfl
  | cons c text ih =>
      rw [List.mem_cons, not_or] at htext
      have hhead : (text ++ rest).head? ≠ some 'x' := by
        cases text with
        | nil => exact hrest
        | cons d text =>
            intro hd
            exact htext.2 (Option.some.inj hd ▸ List.mem_cons_self)
      rw [List.cons_append, afterMark, if_neg (fun hmark => hhead hmark.2), ih htext.2]

/-- A text without the mark's second character has no mark. -/
theorem afterMark_eq_none (h : 'x' ∉ text) : afterMark text = none := by
  have hnone : afterMark (text ++ []) = none := afterMark_append h (by simp)
  rwa [List.append_nil] at hnone

/-- A decimal digit is no second character of the mark. -/
theorem notMem_toDigits (n : Nat) : 'x' ∉ Nat.toDigits 10 n := by
  intro h
  have hdigit := Nat.isDigit_of_mem_toDigits (by decide) (by decide) h
  exact absurd hdigit (by decide)

/-- The digits of a number are what its text consists of. -/
theorem toList_toString (n : Nat) : (toString n).toList = Nat.toDigits 10 n := by
  rw [Nat.toString_eq_repr, Nat.toList_repr]

/-- A hexadecimal digit is no second character of the mark. -/
theorem notMem_hexDigits (byte : UInt8) : 'x' ∉ hexDigits byte := by
  have hdigit : ∀ n < 16, Nat.digitChar n ≠ 'x' := by decide
  have hbyte := byte.toNat_lt
  have hhigh := hdigit (byte.toNat / 16) (by omega)
  have hlow := hdigit (byte.toNat % 16) (by omega)
  simp only [hexDigits, List.mem_cons, List.not_mem_nil, or_false, not_or]
  exact ⟨hhigh.symm, hlow.symm⟩

/-- Two digits begin the text of one byte only. -/
theorem hexDigits_append_inj {left right : List Char}
    (h : hexDigits byte ++ left = hexDigits other ++ right) : byte = other := by
  have hbyte := byte.toNat_lt
  have hother := other.toNat_lt
  simp only [hexDigits, List.cons_append, List.nil_append, List.cons.injEq] at h
  have hhigh := digitChar_inj (by omega) (by omega) h.1
  have hlow := digitChar_inj (by omega) (by omega) h.2.1
  exact UInt8.toNat_inj.mp (by omega)

end Text

namespace Defect

variable {defect : Defect} {byte : UInt8}

/-- Where a text names a byte, the byte's digits follow a mark. -/
theorem Names.exists_mark (h : defect.Names byte) :
    ∃ before rest, defect.message.toList =
      before ++ '0' :: 'x' :: (Text.hexDigits byte ++ rest) := by
  obtain ⟨before, after, h | h⟩ := h
  · refine ⟨before.toList ++ "invalid byte ".toList, " in stanza token".toList ++ after.toList, ?_⟩
    rw [h]
    simp [Text.toList_hexByte]
  · refine ⟨before.toList ++ "found byte ".toList, after.toList, ?_⟩
    rw [h]
    simp [Text.toList_hexByte]

/-- What is written behind the only mark of a text is found there. -/
theorem afterMark_shown {text : String} (h : Text.afterMark text.toList = some []) (byte : UInt8)
    (after : String) :
    Text.afterMark (text ++ Text.hexByte byte ++ after).toList =
      some (Text.hexDigits byte ++ after.toList) := by
  rw [String.toList_append, String.toList_append, List.append_assoc,
    Text.afterMark_append_of_mark h, Text.toList_hexByte]

/-- The text of a defect about a byte shows the byte behind its only mark. -/
theorem afterMark_message_of_some (h : defect.found? = some byte) :
    ∃ rest, Text.afterMark defect.message.toList = some (Text.hexDigits byte ++ rest) ∧
      'x' ∉ rest := by
  have hshown : ∀ text : String, Text.afterMark text.toList = some [] →
      Text.afterMark (text ++ Text.hexByte byte).toList = some (Text.hexDigits byte ++ []) := by
    intro text htext
    have := afterMark_shown htext byte ""
    rwa [String.append_empty] at this
  cases defect with
  | tokenByte found =>
      obtain rfl := Option.some.inj h
      have hmark : Text.afterMark "invalid byte 0x".toList = some [] := by decide
      exact ⟨_, afterMark_shown hmark found " in stanza token", by decide⟩
  | stanzaOrTerminator found =>
      obtain rfl := Option.some.inj h
      exact ⟨[], hshown ("expected stanza or " ++ Text.quote Format.terminator ++
        ", found byte 0x") (by decide), by simp⟩
  | macSpace found =>
      obtain rfl := Option.some.inj h
      exact ⟨[], hshown "expected space before MAC, found byte 0x" (by decide), by simp⟩
  | macLineFeed found =>
      obtain rfl := Option.some.inj h
      exact ⟨[], hshown "expected line feed after MAC, found byte 0x" (by decide), by simp⟩
  | _ => exact absurd h (by simp [found?])

/-- A number in a text is passed over with what stands before it. -/
theorem afterMark_counted {before after : String} (hbefore : 'x' ∉ before.toList) (n : Nat)
    (hafter : after.toList.head? ≠ some 'x') :
    Text.afterMark (before ++ toString n ++ after).toList = Text.afterMark after.toList := by
  rw [String.toList_append]
  refine Text.afterMark_append ?_ hafter
  rw [String.toList_append, Text.toList_toString, List.mem_append, not_or]
  exact ⟨hbefore, Text.notMem_toDigits n⟩

/-- The text of a fault has no mark. -/
theorem notMem_message (fault : Base64.Fault) : 'x' ∉ fault.message.toList := by
  have hplace : ∀ (before : String) (byte : UInt8) (offset : Nat), 'x' ∉ before.toList →
      'x' ∉ (before ++ toString byte.toNat ++ ", offset " ++ toString offset ++ ".").toList := by
    intro before byte offset hbefore
    simp only [String.toList_append, Text.toList_toString, List.mem_append, not_or]
    exact ⟨⟨⟨⟨hbefore, Text.notMem_toDigits _⟩, by decide⟩, Text.notMem_toDigits _⟩, by decide⟩
  cases fault with
  | symbol byte offset => exact hplace "Invalid symbol " byte offset (by decide)
  | lastSymbol byte offset => exact hplace "Invalid last symbol " byte offset (by decide)
  | length count =>
      show 'x' ∉ ("Invalid input length: " ++ toString count).toList
      rw [String.toList_append, Text.toList_toString, List.mem_append, not_or]
      exact ⟨by decide, Text.notMem_toDigits count⟩
  | padding => decide

/-- The text of a defect that is about no byte has no mark. -/
theorem afterMark_message_of_none (h : defect.found? = none)
    (hdescribed : ∀ text, defect ≠ .described text) :
    Text.afterMark defect.message.toList = none := by
  have hfault : ∀ (before : String) (fault : Base64.Fault), 'x' ∉ before.toList →
      Text.afterMark (before ++ fault.message).toList = none := by
    intro before fault hbefore
    refine Text.afterMark_eq_none ?_
    rw [String.toList_append, List.mem_append, not_or]
    exact ⟨hbefore, notMem_message fault⟩
  cases defect with
  | markerWithoutSpace => decide
  | emptyToken => decide
  | missingType => decide
  | longBodyLine length =>
      show Text.afterMark ("stanza body line of " ++ toString length ++ " chars exceeds " ++
        toString Format.bodyLineLength).toList = none
      rw [String.append_assoc, afterMark_counted (by decide) length (by decide)]
      decide
  | body fault => exact hfault "stanza body: " fault (by decide)
  | mac fault => exact hfault "header MAC: " fault (by decide)
  | macLength length =>
      show Text.afterMark ("header MAC is " ++ toString length ++ " bytes, expected " ++
        toString Format.macSize).toList = none
      rw [String.append_assoc, afterMark_counted (by decide) length (by decide)]
      decide
  | described text => exact absurd rfl (hdescribed text)
  | _ => exact absurd h (by simp [found?])

/-- The text of a defect names no byte but the one that the defect is about. -/
theorem found?_eq_of_names (h : defect.Names byte)
    (hdescribed : ∀ text, defect ≠ .described text) : defect.found? = some byte := by
  obtain ⟨before, rest, hmessage⟩ := h.exists_mark
  cases hfound : defect.found? with
  | none =>
      have hnone := afterMark_message_of_none hfound hdescribed
      rw [hmessage] at hnone
      exact absurd hnone (Text.afterMark_mark_ne_none before _)
  | some other =>
      obtain ⟨after, hsome, hafter⟩ := afterMark_message_of_some hfound
      rw [hmessage] at hsome
      have honce : Text.afterMark (Text.hexDigits other ++ after) = none := by
        refine Text.afterMark_eq_none ?_
        rw [List.mem_append, not_or]
        exact ⟨Text.notMem_hexDigits other, hafter⟩
      rw [Text.hexDigits_append_inj (Text.eq_of_afterMark hsome honce)]

end Defect

end AgeFile
