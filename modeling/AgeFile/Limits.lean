/-!
# Limits on a header

A header comes from an untrusted file, so its reader bounds how long it may be and how many stanzas
it may hold.
-/

namespace AgeFile

/-- The bounds within which a header is read: its length in bytes from the version line through the
MAC line, and its number of stanzas. -/
structure HeaderLimits where
  maxHeaderLength : Nat := 1024 * 1024
  maxStanzas : Nat := 4096
  deriving DecidableEq

end AgeFile
