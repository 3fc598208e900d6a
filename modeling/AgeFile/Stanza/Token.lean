import AgeFile.Bytes.Basic

/-!
# Words of a stanza line

A stanza line consists of words between single spaces. A word, or token, has at least one character,
and each of its characters is printable ASCII other than the space. The main statement,
`ofString?_eq_some_iff`, says that a text is taken as a token exactly when it is a token's text.
-/

namespace AgeFile

/-- Whether a byte can stand in a token. -/
def isTokenByte (byte : UInt8) : Bool :=
  0x21 ≤ byte.toNat && byte.toNat ≤ 0x7e

/-- A word that can stand in a stanza line. -/
structure Token where
  bytes : Bytes
  ne_nil : bytes ≠ []
  isTokenByte_of_mem : ∀ b ∈ bytes, isTokenByte b = true
  deriving DecidableEq

namespace Token

/-- Two tokens with the same bytes are equal. -/
@[ext] theorem ext {left right : Token} (h : left.bytes = right.bytes) : left = right := by
  cases left
  cases right
  simp_all

/-- A token as text. -/
def text (token : Token) : String :=
  token.bytes.latinText

/-- Take a byte string as a token, if it can stand in a stanza line. -/
def ofBytes? (bytes : Bytes) : Option Token :=
  if h : bytes ≠ [] ∧ bytes.all isTokenByte = true then
    some ⟨bytes, h.1, List.all_eq_true.mp h.2⟩
  else none

/-- Take a text as a token, if it can stand in a stanza line. A character beyond ASCII cannot. -/
def ofString? (text : String) : Option Token :=
  if text.toList.all fun c => c.toNat < 0x80 then ofBytes? (ascii text) else none

/-- A byte string is taken as a token exactly when it is the token's bytes. -/
theorem ofBytes?_eq_some_iff {bytes : Bytes} {token : Token} :
    ofBytes? bytes = some token ↔ token.bytes = bytes := by
  unfold ofBytes?
  constructor
  · intro h
    split at h
    · exact congrArg Token.bytes (Option.some.inj h).symm
    · exact absurd h (by simp)
  · rintro rfl
    have hall : token.bytes.all isTokenByte = true := List.all_eq_true.mpr token.isTokenByte_of_mem
    simp only [dif_pos (And.intro token.ne_nil hall)]

/-- A text is taken as a token exactly when it is the token's text. -/
theorem ofString?_eq_some_iff {text : String} {token : Token} :
    ofString? text = some token ↔ token.text = text := by
  unfold ofString?
  constructor
  · intro h
    split at h
    · rename_i hall
      rw [ofBytes?_eq_some_iff] at h
      rw [Token.text, h, Bytes.latinText_ascii]
      intro c hc
      have := List.all_eq_true.mp hall c hc
      simp only [decide_eq_true_eq] at this
      omega
    · exact absurd h (by simp)
  · rintro rfl
    rw [if_pos, ofBytes?_eq_some_iff, text, Bytes.ascii_latinText]
    simp only [text, Bytes.latinText, String.toList_ofList, List.all_map, List.all_eq_true]
    intro b hb
    have hbyte := token.isTokenByte_of_mem b hb
    simp only [isTokenByte, Bool.and_eq_true, decide_eq_true_eq] at hbyte
    simp only [Function.comp, decide_eq_true_eq]
    rw [Bytes.toNat_charOfNat (by omega)]
    omega

end Token

end AgeFile
