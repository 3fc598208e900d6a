import AgeFile.Text.DefaultIgnorable
import AgeFile.Text.GraphemeExtend
import AgeFile.Text.Unprintable

/-!
# Quoted text

A text that came from an untrusted file is shown between quotation marks, with every character
escaped that could be mistaken for the quotation, change the line, or hide. `quote` writes it.
-/

namespace AgeFile.Text

/-- Whether a character is a control: it acts on a terminal instead of being shown. -/
def isControl (c : Char) : Bool :=
  c.toNat < 0x20 || (0x7f ≤ c.toNat && c.toNat < 0xa0)

/-- Whether a character is a mark that would merge with the character before it. The two half-width
sound marks extend a grapheme as well, but they are letters with a place of their own. -/
def isJoiningMark (c : Char) : Bool :=
  isGraphemeExtend c && c ≠ '\uff9e' && c ≠ '\uff9f'

/-- Whether a character stands as it is between quotation marks. Printable ASCII does; a control
does not; of the others the Unicode tables decide: one that cannot be shown, is shown as nothing, or
joins the character before it does not stand. -/
def isPlain (c : Char) : Bool :=
  if c.toNat < 0x7f then 0x20 ≤ c.toNat
  else !isControl c && !isUnprintable c && !isDefaultIgnorable c && !isJoiningMark c

/-- A character by its code point, as `\u` and the lower-case hexadecimal number in braces. -/
def escapeCodePoint (c : Char) : List Char :=
  ['\\', 'u', '{'] ++ Nat.toDigits 16 c.toNat ++ ['}']

/-- How a character is written between quotation marks: a mark or a backslash after a backslash,
the four common controls by a letter, and every other character that is not plain by its
code point. -/
def escapeChar (c : Char) : List Char :=
  if c = '"' then ['\\', '"']
  else if c = '\\' then ['\\', '\\']
  else if c = '\x00' then ['\\', '0']
  else if c = '\t' then ['\\', 't']
  else if c = '\n' then ['\\', 'n']
  else if c = '\r' then ['\\', 'r']
  else if isPlain c then [c]
  else escapeCodePoint c

/-- A text in quotation marks, every character written as `escapeChar` says. -/
def quote (text : String) : String :=
  String.ofList ('"' :: text.toList.flatMap escapeChar ++ ['"'])

end AgeFile.Text
