import AgeFile.Proofs.Base64.Canonical
import AgeFile.Proofs.Cipher.Wrapping
import AgeFile.Proofs.Stanza.Codec
import AgeFile.Recipient.Secret
import Mathlib.Data.List.Forall2

/-!
# Which stanza a shared secret opens

Several recipients with secrets may write into one header, and some of them may share a label. A
reader takes the first stanza with its label and no other. Read `Wraps` first: it says what a
recipient writes, whatever its secret and salt are (`exists_wraps`). The main statement,
`read_of_wraps`, is that a reader finds the file key among the stanzas of others, if those before it
with its label have its secret.
-/

namespace AgeFile

/-- The characters of an encoding can stand in a token. -/
theorem Base64.isTokenByte_of_mem_encode {bytes : Bytes} :
    ∀ byte ∈ Base64.encode bytes, isTokenByte byte = true := by
  have hsymbol : ∀ value : Fin 64, isTokenByte (Base64.symbol value) = true := by decide
  intro byte hmem
  obtain ⟨value, hvalue, rfl⟩ := List.mem_map.mp hmem
  obtain ⟨piece, -, hpiece⟩ := List.mem_flatMap.mp hvalue
  exact hsymbol ⟨value, Base64.sextets_lt piece value hpiece⟩

/-- Tokens with the same text are the same. -/
theorem Token.text_injective : Function.Injective Token.text := by
  intro first second htext
  have hbytes := congrArg ascii htext
  rw [text, text, Bytes.ascii_latinText, Bytes.ascii_latinText] at hbytes
  exact Token.ext hbytes

/-- The recipient with a secret as a reader. -/
def SecretRecipient.reader (recipient : SecretRecipient) : StanzaReader Id :=
  fun stanzas => pure (recipient.read stanzas)

/-- A recipient with a secret as it stands in one file: its label can stand in a stanza, and it
writes with this salt. -/
structure SaltedRecipient where
  label : Token
  secret : Bytes
  salt : FixedBytes MacContext.salt.size

namespace SaltedRecipient

/-- The recipient without its salt, as the reader knows it. -/
def recipient (salted : SaltedRecipient) : SecretRecipient :=
  ⟨salted.label.text, salted.secret⟩

/-- The recipient as a writer. -/
def writer (salted : SaltedRecipient) : StanzaWriter Id :=
  fun fileKey => pure (salted.recipient.write salted.salt.bytes fileKey)

/-- A stanza is the one in which a recipient wraps a file key: it carries the label and the salt in
base64, and its body is the file key encrypted under the key derived from secret and salt. -/
structure Wraps (salted : SaltedRecipient) (fileKey : FileKey) (stanza : Stanza) : Prop where
  tag : stanza.tag.text = "test"
  args : stanza.args.map Token.bytes = [salted.label.bytes, Base64.encode salted.salt.bytes]
  body : ∃ key wrapped,
    deriveKey salted.secret (Key.ofFixed salted.salt : MacKey .salt) (ascii "test-wrap") = .ok key ∧
      wrapFileKey key fileKey = .ok wrapped ∧ wrapped.storage.bytes = stanza.body

variable {salted other : SaltedRecipient} {fileKey : FileKey} {stanza : Stanza}
  {recipients earlier later : List SaltedRecipient} {stanzas : List Stanza}

/-- The wrapping key is derived with the recipient's salt. -/
theorem wrapKey_salt (secret : SecretRecipient) (salt : FixedBytes MacContext.salt.size) :
    secret.wrapKey salt.bytes =
      deriveKey secret.secret (Key.ofFixed salt : MacKey .salt) (ascii "test-wrap") := by
  have hsalt : Key.ofBytes (.mac .salt) salt.bytes = .ok (Key.ofFixed salt) :=
    Key.ofBytes_eq_ok_iff.mpr ⟨salt, rfl, rfl⟩
  rw [SecretRecipient.wrapKey, hsalt]
  rfl

/-- Every recipient wraps every file key that was not destroyed in one stanza. -/
theorem exists_wraps (salted : SaltedRecipient) (hlive : fileKey.destroyed = false) :
    ∃ stanza, (salted.writer fileKey).run = .ok [stanza] ∧ salted.Wraps fileKey stanza := by
  obtain ⟨key, hkey, hkeyLive, -⟩ := deriveKey_of_live salted.secret
    (Key.ofFixed salted.salt : MacKey .salt) (ascii "test-wrap") rfl
  obtain ⟨wrapped, hwrapped, hwrappedLive, -⟩ := exists_wrapFileKey hkeyLive hlive
  obtain ⟨tag, htag⟩ : ∃ tag : Token, tag.text = "test" :=
    ⟨⟨ascii "test", by decide, List.all_eq_true.mp (by decide)⟩, by decide⟩
  have hne : Base64.encode salted.salt.bytes ≠ [] := by
    rw [← List.length_pos_iff, Base64.length_encode, salted.salt.length_eq]
    decide
  let salt : Token := ⟨_, hne, Base64.isTokenByte_of_mem_encode⟩
  have hcreate : Stanza.create SecretRecipient.tag
      [salted.label.text, (Base64.encode salted.salt.bytes).latinText] wrapped.content.bytes =
      .ok ⟨tag, [salted.label, salt], wrapped.content.bytes⟩ :=
    Stanza.create_eq_ok_iff.mpr ⟨htag, rfl, rfl⟩
  refine ⟨⟨tag, [salted.label, salt], wrapped.content.bytes⟩, ?_, htag, rfl, key, wrapped, hkey,
    hwrapped, (Key.bytes_content (Nat.le_refl _) wrapped).symm⟩
  show salted.recipient.write salted.salt.bytes fileKey = _
  rw [SecretRecipient.write, wrapKey_salt, recipient, hkey, ok_bind, hwrapped, ok_bind,
    Key.read_of_live hwrappedLive, ok_bind, hcreate]
  rfl

/-- Whoever has the secret recovers the file key from the stanza in which it was wrapped. -/
theorem unwrap_of_wraps (h : salted.Wraps fileKey stanza) (reader : SecretRecipient)
    (hsecret : reader.secret = salted.secret) :
    reader.unwrap (Base64.encode salted.salt.bytes) stanza.body = .ok fileKey := by
  obtain ⟨key, wrapped, hkey, hwrapped, hbody⟩ := h.body
  obtain ⟨hlive, hunwrap⟩ := unwrapFileKey_of_wrapFileKey hwrapped
  have hfound : Key.ofBytes .encryptedFile stanza.body = .ok wrapped :=
    Key.ofBytes_eq_ok_iff.mpr ⟨wrapped.content,
      (Key.bytes_content (Nat.le_refl _) wrapped).trans hbody,
      Key.ofFixed_content (Nat.le_refl _) hlive⟩
  rw [SecretRecipient.unwrap, Base64.decode_encode]
  dsimp only
  rw [hfound, ok_bind, wrapKey_salt, hsecret, hkey, ok_bind, hunwrap]

/-- A stanza is addressed to the readers with the label of its recipient, and to no others. -/
theorem saltText?_of_wraps (h : salted.Wraps fileKey stanza) (reader : SaltedRecipient) :
    reader.recipient.saltText? stanza =
      if salted.label = reader.label then some (Base64.encode salted.salt.bytes) else none := by
  obtain ⟨tag, args, body⟩ := stanza
  obtain ⟨label, rest, rfl, hlabel, hrest⟩ := List.map_eq_cons_iff.mp h.args
  obtain ⟨salt, others, rfl, hsalt, hothers⟩ := List.map_eq_cons_iff.mp hrest
  obtain rfl := List.map_eq_nil_iff.mp hothers
  obtain rfl : label = salted.label := Token.ext hlabel
  have haddressed : (tag.text = SecretRecipient.tag ∧
      salted.label.text = reader.recipient.label) ↔ salted.label = reader.label :=
    ⟨fun htext => Token.text_injective htext.2, fun hsame => ⟨h.tag, congrArg Token.text hsame⟩⟩
  rw [SecretRecipient.saltText?]
  simp only [haddressed, hsalt]

/-- A recipient finds the file key among the stanzas of several recipients, if those before it with
its label have its secret. -/
theorem read_of_wraps (reader : SaltedRecipient)
    (h : List.Forall₂ (fun salted stanza => salted.Wraps fileKey stanza)
      (earlier ++ reader :: later) stanzas)
    (hsame : ∀ other ∈ earlier, other.label = reader.label → other.secret = reader.secret) :
    reader.recipient.read stanzas = .ok (some fileKey) := by
  -- Induction on the recipients before it: a stanza of one of them is passed over, or opens.
  induction earlier generalizing stanzas with
  | nil =>
      cases h with
      | cons hown _ =>
          rw [SecretRecipient.read, saltText?_of_wraps hown, if_pos rfl]
          dsimp only
          rw [unwrap_of_wraps hown _ rfl]
          rfl
  | cons other earlier ih =>
      cases h with
      | cons hother hrest =>
          rw [SecretRecipient.read, saltText?_of_wraps hother]
          by_cases hlabel : other.label = reader.label
          · have hsecret := hsame other List.mem_cons_self hlabel
            rw [if_pos hlabel]
            dsimp only
            rw [unwrap_of_wraps hother _ hsecret.symm]
            rfl
          · rw [if_neg hlabel]
            exact ih hrest fun before hmem => hsame before (List.mem_cons_of_mem other hmem)

/-- A reader finds nothing among the stanzas of recipients none of which has its label. -/
theorem read_of_wraps_others (reader : SaltedRecipient)
    (h : List.Forall₂ (fun salted stanza => salted.Wraps fileKey stanza) recipients stanzas)
    (hothers : ∀ other ∈ recipients, other.label ≠ reader.label) :
    reader.recipient.read stanzas =
      .error (.recipient reader.label.text "no matching stanza") := by
  induction h with
  | nil => rfl
  | @cons other _ _ _ hother _ ih =>
      rw [SecretRecipient.read, saltText?_of_wraps hother,
        if_neg (hothers other List.mem_cons_self)]
      exact ih fun recipient hmem => hothers recipient (List.mem_cons_of_mem other hmem)

end SaltedRecipient

end AgeFile
