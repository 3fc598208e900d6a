import AgeFile.Proofs.Envelope.Calls
import AgeFile.Proofs.Envelope.Limits
import AgeFile.Proofs.Stanza.Layout

/-!
# The size of what is written

How many bytes the beginning of a file takes follows from the stanzas alone. `written_layout` is the
main statement: the lines of every stanza, and 86 bytes beside the stanzas of all writers. These are
the version line, the terminator, the MAC line and the nonce.
-/

namespace AgeFile

variable {σ : Type}

/-- The beginning of a file takes 86 bytes and those of the stanzas in its header. -/
theorem length_written_append (stanzas : List Stanza) (mac : Mac)
    (nonce : FixedBytes Format.payloadNonceSize) :
    (Header.coveredBytes stanzas ++ Header.encodeFooter mac ++ nonce.bytes).length =
      86 + (stanzas.map fun stanza => stanza.encode.length).sum := by
  rw [List.length_append, List.length_append, Header.length_coveredBytes,
    Header.length_encodeFooter, nonce.length_eq, show Format.footerLength = 45 from rfl,
    show Format.payloadNonceSize = 16 from rfl]
  omega

/-- Where writing yields bytes, no writer failed, and the stanzas of all of them determine how many
bytes there are. -/
theorem EncryptOutcome.length_eq {source : RandomSource} {writers : List (StanzaWriter (StateM σ))}
    {world last : σ} {bytes : Bytes} {payload : CipherKey} {drawn asked : Nat}
    (h : EncryptOutcome source writers world (.ok (bytes, payload)) drawn asked last) :
    ∃ lists, Wrote source.fileKey writers world lists last ∧
      bytes.length = 86 + (lists.flatten.map fun stanza => stanza.encode.length).sum := by
  cases h with
  | @written lists _ _ _ hsome hall hcovered hlive hpayload =>
      subst hcovered
      exact ⟨lists, hall, length_written_append lists.flatten _ _⟩

/-- A stanza is written behind the bytes that are there already: the marker, its words with a space
before each of them and a line feed, then the lines that its base64 text is wrapped into, with a
line feed behind each. The lengths of its words and of its body determine how many bytes these are.
When writing the beginning of a file yields bytes, there are 86 and those of the stanzas that the
writers gave. -/
theorem written_layout (buffer : Bytes) (stanza : Stanza) (source : RandomSource)
    (writers : List (StanzaWriter (StateM σ))) (world : σ) :
    let text := Base64.encode stanza.body
    let words := stanza.tag :: stanza.args
    text.length = (4 * stanza.body.length + 2) / 3 ∧
    (∃ lines, Stanza.Wrapping text lines ∧ (∀ line ∈ lines, lineFeed ∉ line) ∧
      Stanza.appendTo buffer stanza = buffer ++
        (ascii "->" ++ words.flatMap (fun word => space :: word.bytes) ++ [lineFeed] ++
          lines.flatMap fun line => line ++ [lineFeed])) ∧
    (Stanza.appendTo buffer stanza).length = buffer.length +
      (4 + text.length + text.length / 64 + (words.map fun word => 1 + word.bytes.length).sum) ∧
    ∀ bytes payload after last,
      (encryptHeader writers source).run world = ((.ok (bytes, payload), after), last) →
      ∃ lists, Wrote source.fileKey writers world lists last ∧
        bytes.length = 86 + (lists.flatten.map fun written => written.encode.length).sum := by
  refine ⟨Base64.length_encode _, Stanza.appendTo_layout buffer stanza, ?_, ?_⟩
  · rw [Stanza.length_appendTo, Base64.length_encode]
  · intro bytes payload after last hrun
    obtain ⟨result, drawn, asked, state, houtcome⟩ := exists_encryptOutcome source writers world
    obtain ⟨hanswer, rfl⟩ := Prod.mk.inj (hrun.symm.trans houtcome.run_eq)
    obtain ⟨rfl, -⟩ := Prod.mk.inj hanswer
    exact houtcome.length_eq

/-- For a plain recipient, whose stanza takes 28 bytes, the beginning of a file takes 114. -/
theorem written_layout_onePlain :
    let writer : StanzaWriter (StateM Unit) := fun fileKey => pure (.ok [plainStanza fileKey])
    ∃ bytes payload after,
      (encryptHeader [writer] ⟨fun _ => 0, 0⟩).run () = ((.ok (bytes, payload), after), ()) ∧
        bytes.length = 114 := by
  intro writer
  let source : RandomSource := ⟨fun _ => 0, 0⟩
  have hwrote : Wrote source.fileKey [writer] () [[plainStanza source.fileKey]] () :=
    .cons rfl .nil
  obtain ⟨payload, -, hlive, hpayload⟩ := payloadKey_of_live source.fileKey_live
    (source.ahead Format.fileKeySize Format.payloadNonceSize)
  rw [source.bytes_fileKey] at hpayload
  have hrun := (EncryptOutcome.written (List.cons_ne_nil _ _) hwrote rfl hlive hpayload).run_eq
  obtain ⟨lists, hlists, hlength⟩ :=
    (written_layout [] (plainStanza source.fileKey) source [writer] ()).2.2.2 _ _ _ _ hrun
  refine ⟨_, payload, _, hrun, ?_⟩
  obtain rfl : lists = [[plainStanza source.fileKey]] := by
    cases hlists with
    | cons hanswer hrest =>
        cases hrest
        exact congrArg (fun own => [own]) (Except.ok.inj (Prod.mk.inj hanswer).1).symm
  rw [hlength, List.flatten_singleton, List.map_singleton, List.sum_singleton, length_plainStanza]

end AgeFile
