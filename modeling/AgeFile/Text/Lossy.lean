import AgeFile.Bytes.Basic

/-!
# Reading bytes as text, with replacement

Text is expected in UTF-8. A byte string that is not well-formed is read all the same: each longest
stretch that begins a character but does not finish one, and each byte that begins none, becomes
one replacement character. `readLossy` reads byte by byte and remembers the character begun.
-/

namespace AgeFile.Text

/-- The character that stands for a stretch of bytes with no meaning. -/
def replacement : Char := '\ufffd'

/-- A character begun: the bits read so far, how many bytes are still missing, and the range in
which the next byte must lie. -/
structure Begun where
  bits : Nat
  missing : Nat
  least : Nat
  greatest : Nat

/-- What has been read: the text so far, its last character first, and the character begun. -/
structure LossyState where
  text : List Char
  begun : Option Begun

/-- Read a byte where a character begins. A lead byte fixes how many bytes follow it and, so that
no character has two spellings and no surrogate is spelled, in which range the second one lies. -/
def LossyState.lead (text : List Char) (byte : Nat) : LossyState :=
  if byte < 0x80 then ⟨Char.ofNat byte :: text, none⟩
  else if 0xc2 ≤ byte ∧ byte ≤ 0xdf then ⟨text, some ⟨byte - 0xc0, 1, 0x80, 0xbf⟩⟩
  else if byte = 0xe0 then ⟨text, some ⟨0, 2, 0xa0, 0xbf⟩⟩
  else if byte = 0xed then ⟨text, some ⟨0xd, 2, 0x80, 0x9f⟩⟩
  else if 0xe1 ≤ byte ∧ byte ≤ 0xef then ⟨text, some ⟨byte - 0xe0, 2, 0x80, 0xbf⟩⟩
  else if byte = 0xf0 then ⟨text, some ⟨0, 3, 0x90, 0xbf⟩⟩
  else if byte = 0xf4 then ⟨text, some ⟨4, 3, 0x80, 0x8f⟩⟩
  else if 0xf1 ≤ byte ∧ byte ≤ 0xf3 then ⟨text, some ⟨byte - 0xf0, 3, 0x80, 0xbf⟩⟩
  else ⟨replacement :: text, none⟩

/-- Read one byte. A byte outside the range that the character begun allows ends that character as
a replacement and is read as the beginning of the next one. -/
def LossyState.step (state : LossyState) (byte : UInt8) : LossyState :=
  match state.begun with
  | none => LossyState.lead state.text byte.toNat
  | some p =>
      if p.least ≤ byte.toNat ∧ byte.toNat ≤ p.greatest then
        let bits := 64 * p.bits + (byte.toNat - 0x80)
        if p.missing = 1 then ⟨Char.ofNat bits :: state.text, none⟩
        else ⟨state.text, some ⟨bits, p.missing - 1, 0x80, 0xbf⟩⟩
      else LossyState.lead (replacement :: state.text) byte.toNat

/-- The text read when the bytes end; a character begun and not finished is replaced. -/
def LossyState.finish (state : LossyState) : String :=
  match state.begun with
  | none => String.ofList state.text.reverse
  | some _ => String.ofList (replacement :: state.text).reverse

/-- Read a byte string as UTF-8, with a replacement character for each ill-formed stretch. -/
def readLossy (bytes : Bytes) : String :=
  (bytes.foldl LossyState.step ⟨[], none⟩).finish

end AgeFile.Text
