import AgeFile.Cipher
import AgeFile.KeySchedule
import AgeFile.Recipient.Basic

/-!
# The shared-secret recipient

Writer and reader share a secret and a label. The file key is wrapped under a key derived from the
secret and a salt, and the salt is written next to the label. This is the mechanism to test others
against: it needs no key agreement.
-/

namespace AgeFile

/-- A secret, and the label under which its stanzas are found. -/
structure SecretRecipient where
  label : String
  secret : Bytes

namespace SecretRecipient

/-- The type of the recipient's stanzas. -/
def tag : String := "test"

/-- What the wrapping key is derived for. -/
def info : Bytes := ascii "test-wrap"

/-- The key that wraps the file key, by the salt in the stanza. -/
def wrapKey (recipient : SecretRecipient) (salt : Bytes) : Except Error CipherKey := do
  let salt ← Key.ofBytes (.mac .salt) salt
  deriveKey recipient.secret salt info

/-- Wrap the file key in a stanza that carries the label and the salt. -/
def write (recipient : SecretRecipient) (salt : Bytes) (fileKey : FileKey) :
    Except Error (List Stanza) := do
  let key ← recipient.wrapKey salt
  let wrapped ← wrapFileKey key fileKey
  let body ← wrapped.read
  let stanza ← Stanza.create tag [recipient.label, (Base64.encode salt).latinText] body.bytes
  return [stanza]

/-- The salt, still in base64, of a stanza that is addressed to the recipient. -/
def saltText? (recipient : SecretRecipient) (stanza : Stanza) : Option Bytes :=
  match stanza.args with
  | [label, salt] =>
      if stanza.tag.text = tag ∧ label.text = recipient.label then some salt.bytes else none
  | _ => none

/-- Recover the file key from a stanza by the text of its salt. -/
def unwrap (recipient : SecretRecipient) (saltText body : Bytes) : Except Error FileKey := do
  match Base64.decode saltText with
  | .error fault => throw (.recipient tag ("bad salt: " ++ fault.message))
  | .ok salt =>
      let wrapped ← Key.ofBytes .encryptedFile body
      let key ← recipient.wrapKey salt
      unwrapFileKey key wrapped

/-- Recover the file key from the first stanza that is addressed to the recipient. -/
def read (recipient : SecretRecipient) :
    (stanzas : List Stanza) → Except Error (Option FileKey)
  | [] => .error (.recipient recipient.label "no matching stanza")
  | stanza :: stanzas =>
      match recipient.saltText? stanza with
      | none => recipient.read stanzas
      | some saltText => (recipient.unwrap saltText stanza.body).map some

end SecretRecipient

end AgeFile
