import AgeFile.Key
import AgeFile.Stanza.Basic

/-!
# Recipients

A recipient mechanism puts the file key into stanzas when a file is written, and recovers it from
them when the file is read. It may act while doing so (ask for a passphrase, talk to a device), so
its answers come in a monad of the caller's choice.
-/

namespace AgeFile

/-- Recovers the file key from the stanzas of a header, for one identity. The answer is nothing when
no stanza is addressed to it. -/
abbrev StanzaReader (m : Type → Type) :=
  List Stanza → m (Except Error (Option FileKey))

/-- Produces the stanzas from which one recipient can recover the file key. -/
abbrev StanzaWriter (m : Type → Type) :=
  FileKey → m (Except Error (List Stanza))

/-- The recipient that puts the file key into a stanza as it is. Everybody can read such a file. -/
structure PlainRecipient where
  tag : String
  args : List String := []

namespace PlainRecipient

/-- Write the file key in the clear. -/
def write (recipient : PlainRecipient) (fileKey : FileKey) : Except Error (List Stanza) := do
  let bytes ← fileKey.read
  let stanza ← Stanza.create recipient.tag recipient.args bytes.bytes
  return [stanza]

/-- Take the body of the first stanza of the recipient's type as the file key. -/
def read (recipient : PlainRecipient) (stanzas : List Stanza) : Except Error (Option FileKey) :=
  match stanzas.find? fun stanza => stanza.tag.text == recipient.tag with
  | none => .ok none
  | some stanza => (Key.ofBytes .file stanza.body).map some

end PlainRecipient

end AgeFile
