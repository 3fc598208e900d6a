import AgeFile.Bytes.Fixed
import AgeFile.Stanza.Basic

/-!
# Headers

A header lists a file's recipients and carries a MAC over their list. This module holds the type and
the bytes that the MAC covers: the version line, the stanzas, and the terminator.
-/

namespace AgeFile

/-- The MAC of a header. -/
abbrev Mac := FixedBytes Format.macSize

/-- A header: its stanzas, and a MAC that is not verified yet. -/
structure Header where
  stanzas : List Stanza
  mac : Mac
  deriving DecidableEq

namespace Header

/-- The bytes of the version line, without its line feed. -/
def versionLine : Bytes := ascii Format.versionLine

/-- The bytes of the terminator. -/
def terminator : Bytes := ascii Format.terminator

/-- The bytes that a header's MAC covers: from the version line through the terminator. -/
def coveredBytes (stanzas : List Stanza) : Bytes :=
  versionLine ++ [lineFeed] ++ stanzas.flatMap Stanza.encode ++ terminator

/-- The end of a header in its written form: a space, the MAC in base64 and a line feed. -/
def encodeFooter (mac : Mac) : Bytes :=
  [space] ++ Base64.encode mac.bytes ++ [lineFeed]

end Header

end AgeFile
