import AgeFile.Envelope
import AgeFile.Proofs.Header.Checked

/-!
# Reading the beginning of a file with checked accesses

A file comes from somewhere, and no input may stop the reader or make it go on for ever. Read
`reads_within_input` first: with every access checked, and with no more rounds than the input has
bytes, a header and the beginning of a file are read to the same answers as without; the rounds
begin within the input and move on; and only an offset beyond the end of the input is out of range.
-/

namespace AgeFile.Checked

variable {m : Type → Type} [Monad m]

/-- Read the beginning of a file: the payload key, and the offset at which the payload begins. The
nonce is taken from the bytes behind the header, if there are enough of them. -/
def decryptHeader (input : Bytes) (readers : List (StanzaReader m)) (limits : HeaderLimits) :
    m (Option (Except Error (CipherKey × Nat))) :=
  match (parse input limits).run with
  | none => pure none
  | some (.error e) => pure (some (.error e))
  | some (.ok (header, cursor)) => do
      match ← unlockHeader header readers with
      | .error e => pure (some (.error e))
      | .ok fileKey =>
          match suffix? input cursor with
          | none => pure none
          | some rest =>
              let nonce := (slice? rest 0 Format.payloadNonceSize).bind
                (FixedBytes.ofBytes? Format.payloadNonceSize)
              match nonce with
              | none => pure (some (.error (.truncated Format.payloadNonceSize rest.length)))
              | some nonce =>
                  match payloadKey fileKey nonce with
                  | .error e => pure (some (.error e))
                  | .ok key => pure (some (.ok (key, cursor + Format.payloadNonceSize)))

/-- The first bytes of a text are taken as a value of their length exactly when there are enough of
them. -/
theorem slice?_bind_ofBytes? (rest : Bytes) (size : Nat) :
    (slice? rest 0 size).bind (FixedBytes.ofBytes? size) =
      FixedBytes.ofBytes? size (rest.take size) := by
  unfold slice?
  by_cases hsize : size ≤ rest.length
  · rw [if_pos ⟨Nat.zero_le _, hsize⟩, List.drop_zero]
    rfl
  · have hshort : (rest.take size).length ≠ size := by
      rw [List.length_take]
      omega
    rw [if_neg (fun h => hsize h.2), FixedBytes.ofBytes?, dif_neg hshort]
    rfl

/-- The beginning of a file is read in agreement, whatever the readers do. -/
theorem decryptHeader_eq [LawfulMonad m] (input : Bytes) (readers : List (StanzaReader m))
    (limits : HeaderLimits) :
    decryptHeader input readers limits = some <$> AgeFile.decryptHeader input readers limits := by
  have hagrees := agrees_parse input limits
  rw [Agrees] at hagrees
  rw [decryptHeader, AgeFile.decryptHeader, hagrees]
  cases hread : Header.read limits (Cursor.start input) with
  | error e => exact (map_pure some (Except.error e)).symm
  | ok found =>
      obtain ⟨header, next⟩ := found
      have hin : next.IsIn input :=
        (Header.read_eq_ok_iff.mp hread).2.2.isIn (Cursor.start_isIn input)
      show (unlockHeader header readers >>= _) = some <$> (unlockHeader header readers >>= _)
      rw [map_bind]
      refine bind_congr ?_
      intro unlocked
      cases unlocked with
      | error e => exact (map_pure some (Except.error e)).symm
      | ok fileKey =>
          dsimp only [atOffset]
          rw [suffix?_offset hin]
          dsimp only
          rw [slice?_bind_ofBytes?]
          cases FixedBytes.ofBytes? Format.payloadNonceSize
              (next.rest.take Format.payloadNonceSize) with
          | none => exact (map_pure some _).symm
          | some nonce =>
              dsimp only
              cases payloadKey fileKey nonce with
              | error e => exact (map_pure some (Except.error e)).symm
              | ok key => exact (map_pure some _).symm

/-- Whatever the input, every access of the reader is in range and every loop ends. A header is read
to its answer, and so is the beginning of a file, for readers that answer from any state. Rounds
begin in the input, at least six bytes apart; a stanza that is read takes at least six bytes of the
input, and a line takes its line feed. A stanza or a MAC is looked for at any offset, and the access
is out of range exactly beyond the end of the input. -/
theorem reads_within_input (input : Bytes) :
    (∀ limits, parse input limits = some (Header.parse input limits)) ∧
    (∀ (σ : Type) (readers : List (StanzaReader (StateM σ))) (limits : HeaderLimits) (state : σ),
      ∃ answer after,
        (AgeFile.decryptHeader input readers limits).run state = (answer, after) ∧
        (decryptHeader input readers limits).run state = (some answer, after)) ∧
    (∀ limits count cursor, StanzaCursor input limits count cursor →
      22 + 6 * count ≤ cursor ∧ cursor ≤ input.length) ∧
    (∀ cursor stanza stop, readStanza input cursor = some (.ok (some (stanza, stop))) →
      cursor + 6 ≤ stop ∧ stop ≤ input.length) ∧
    (∀ cursor line stop, readLine input cursor = some (.ok (line, stop)) →
      cursor < stop ∧ stop ≤ input.length) ∧
    (∀ cursor, readStanza input cursor = Stanza.parseAt? input cursor ∧
      readMac input cursor = Header.parseMacAt? input cursor ∧
      (readStanza input cursor = none ↔ input.length < cursor) ∧
      (readMac input cursor = none ↔ input.length < cursor)) := by
  refine ⟨parse_eq input, ?_, ?_, ?_, ?_, ?_⟩
  · intro σ readers limits state
    refine ⟨_, _, rfl, ?_⟩
    rw [decryptHeader_eq]
    rfl
  · intro limits count cursor h
    exact h.bounds
  · intro cursor stanza stop h
    exact readStanza_advances h
  · intro cursor line stop h
    obtain ⟨rfl, hend⟩ := readLine_advances h
    exact ⟨by omega, hend⟩
  · intro cursor
    refine ⟨readStanza_eq input cursor, readMac_eq input cursor, ?_, ?_⟩
    · rw [readStanza_eq]
      exact Option.map_eq_none_iff.trans Cursor.at?_eq_none_iff
    · rw [readMac_eq]
      exact Option.map_eq_none_iff.trans Cursor.at?_eq_none_iff

end AgeFile.Checked
