import AgeFile.Header.Authentication
import AgeFile.Recipient.Basic

/-!
# Finding the file key

The readers are tried in order against all stanzas of a header, up to the first that yields a key.
When none does, the error of a single reader is passed on; the errors of several are collected.
-/

namespace AgeFile

variable {m : Type → Type} [Monad m]

/-- Try readers in order until one yields a key. Otherwise there is a cause for each of them, in
order; `causes` holds those of the readers tried before, the last one first. -/
def tryReaders (stanzas : List Stanza) :
    List (StanzaReader m) → (causes : List Error) → m (Except (List Error) FileKey)
  | [], causes => pure (.error causes.reverse)
  | reader :: readers, causes => do
      match ← reader stanzas with
      | .ok (some key) => pure (.ok key)
      | .ok none => tryReaders stanzas readers (.noFileKey :: causes)
      | .error e => tryReaders stanzas readers (e :: causes)

/-- The error of readers none of which yielded a key. -/
def Error.ofCauses : List Error → Error
  | [cause] => cause
  | causes => .noSupportedRecipient causes

/-- The key of the first reader that yields one. -/
def resolveFileKey (stanzas : List Stanza) (readers : List (StanzaReader m)) :
    m (Except Error FileKey) := do
  match ← tryReaders stanzas readers [] with
  | .ok key => pure (.ok key)
  | .error causes => pure (.error (Error.ofCauses causes))

/-- The key of the first reader that yields one, if the header's MAC verifies under it. No later
reader is asked when it does not. -/
def unlockHeader (header : Header) (readers : List (StanzaReader m)) :
    m (Except Error FileKey) := do
  match ← resolveFileKey header.stanzas readers with
  | .error e => pure (.error e)
  | .ok key =>
      match header.verifyMac key with
      | .error e => pure (.error e)
      | .ok () => pure (.ok key)

end AgeFile
