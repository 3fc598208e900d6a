import AgeFile.Proofs.Envelope.Writing
import AgeFile.Proofs.Recipient.Calls

/-!
# What writing draws, calls and yields

The writers here may act and change the state of the world while they answer. Read `EncryptOutcome`
first: it says how writing the beginning of a file can come out, with how many random bytes and how
many calls. The main statement, `encryptHeader_outcome`, is that it always comes out in one of these
ways. So the only errors are that there are no writers and that a writer fails.
-/

namespace AgeFile

variable {σ : Type}

/-- Random bytes that lie ahead of those drawn already, behind some that are skipped. -/
def RandomSource.ahead (source : RandomSource) (skipped count : Nat) : FixedBytes count :=
  ⟨(List.range' (source.drawn + skipped) count).map source.byteAt, by simp⟩

/-- The file key of a file that is written with these random bytes: the first of them. -/
def RandomSource.fileKey (source : RandomSource) : FileKey :=
  Key.ofFixed (source.ahead 0 Format.fileKeySize)

/-- Writers are called one after the other, each once and with the same file key, and none of them
fails: the state of the world before, the stanzas of each writer, and the state of the world
afterwards. -/
inductive Wrote (fileKey : FileKey) :
    List (StanzaWriter (StateM σ)) → σ → List (List Stanza) → σ → Prop
  | nil {world : σ} : Wrote fileKey [] world [] world
  | cons {writer : StanzaWriter (StateM σ)} {writers : List (StanzaWriter (StateM σ))}
      {own : List Stanza} {lists : List (List Stanza)} {world middle last : σ} :
      (writer fileKey).run world = (.ok own, middle) → Wrote fileKey writers middle lists last →
      Wrote fileKey (writer :: writers) world (own :: lists) last

/-- How writing the beginning of a file comes out: the result, the number of random bytes drawn, the
number of writers that were called, and the state of the world afterwards. -/
inductive EncryptOutcome (source : RandomSource) (writers : List (StanzaWriter (StateM σ)))
    (world : σ) : Except Error (Bytes × CipherKey) → (drawn asked : Nat) → σ → Prop
  /-- There are no writers. -/
  | nobody (hnone : writers = []) :
      EncryptOutcome source writers world (.error .noRecipients) 0 0 world
  /-- A writer fails, and none before it did. -/
  | failed {before after : List (StanzaWriter (StateM σ))} {writer : StanzaWriter (StateM σ)}
      {lists : List (List Stanza)} {middle last : σ} {e : Error}
      (hwriters : writers = before ++ writer :: after)
      (hbefore : Wrote source.fileKey before world lists middle)
      (hfails : (writer source.fileKey).run middle = (.error e, last)) :
      EncryptOutcome source writers world (.error e) Format.fileKeySize (before.length + 1) last
  /-- No writer fails. The header for all their stanzas is written with its MAC and a nonce, and the
  payload key is derived from the file key and the nonce. -/
  | written {lists : List (List Stanza)} {last : σ} {covered : Bytes} {payload : CipherKey}
      (hsome : writers ≠ []) (hall : Wrote source.fileKey writers world lists last)
      (hcovered : covered = Header.coveredBytes lists.flatten)
      (hlive : payload.destroyed = false)
      (hpayload : payload.storage.bytes =
        Hkdf.derive (source.ahead 0 Format.fileKeySize).bytes
          (source.ahead Format.fileKeySize Format.payloadNonceSize).bytes (ascii "payload")
          Format.cipherKeySize) :
      EncryptOutcome source writers world
        (.ok (covered ++
          ([space] ++ Base64.encode (Header.expectedMac source.fileKey covered).bytes ++
            [lineFeed]) ++
          (source.ahead Format.fileKeySize Format.payloadNonceSize).bytes, payload))
        (Format.fileKeySize + Format.payloadNonceSize) writers.length last

variable {fileKey : FileKey} {writers before after : List (StanzaWriter (StateM σ))}
  {writer : StanzaWriter (StateM σ)} {world middle last : σ} {lists : List (List Stanza)}
  {source : RandomSource} {result : Except Error (Bytes × CipherKey)} {drawn asked : Nat}
  {e : Error}

/-- The bytes of the file key are the first that lie ahead. -/
theorem RandomSource.bytes_fileKey (source : RandomSource) :
    source.fileKey.storage.bytes = (source.ahead 0 Format.fileKeySize).bytes := by
  rw [← Key.bytes_content (Nat.le_refl _), fileKey, Key.content_ofFixed]

/-- The file key that lies ahead was not destroyed. -/
theorem RandomSource.fileKey_live (source : RandomSource) : source.fileKey.destroyed = false := rfl

/-- The new file key is the one of the bytes that lie ahead. -/
theorem generateFileKey_eq (source : RandomSource) :
    generateFileKey source = (source.fileKey, ⟨source.byteAt, source.drawn + Format.fileKeySize⟩) :=
  rfl

/-- What is drawn after some bytes lies ahead behind these. -/
theorem RandomSource.draw_behind (source : RandomSource) (skipped count : Nat) :
    RandomSource.draw count ⟨source.byteAt, source.drawn + skipped⟩ =
      (source.ahead skipped count, ⟨source.byteAt, source.drawn + (skipped + count)⟩) := by
  rw [draw, ← Nat.add_assoc]
  rfl

/-- None of the writers fails, or one of them is the first that does. -/
theorem wrote_or_fails (fileKey : FileKey) (writers : List (StanzaWriter (StateM σ))) (world : σ) :
    (∃ lists last, Wrote fileKey writers world lists last) ∨
      ∃ before writer after lists middle e last, writers = before ++ writer :: after ∧
        Wrote fileKey before world lists middle ∧
        (writer fileKey).run middle = (.error e, last) := by
  induction writers generalizing world with
  | nil => exact Or.inl ⟨[], world, .nil⟩
  | cons writer writers ih =>
      cases hanswer : (writer fileKey).run world with
      | mk answer middle =>
          cases answer with
          | error e => exact Or.inr ⟨[], writer, writers, [], world, e, middle, rfl, .nil, hanswer⟩
          | ok own =>
              rcases ih middle with ⟨lists, last, hrest⟩ |
                ⟨before, first, after, lists, state, e, last, rfl, hbefore, hfails⟩
              · exact Or.inl ⟨own :: lists, last, .cons hanswer hrest⟩
              · exact Or.inr ⟨writer :: before, first, after, own :: lists, state, e, last, rfl,
                  .cons hanswer hbefore, hfails⟩

/-- Writing always comes out in one of the ways described. -/
theorem exists_encryptOutcome (source : RandomSource) (writers : List (StanzaWriter (StateM σ)))
    (world : σ) :
    ∃ result drawn asked last, EncryptOutcome source writers world result drawn asked last := by
  by_cases hnone : writers = []
  · exact ⟨_, _, _, world, .nobody hnone⟩
  · rcases wrote_or_fails source.fileKey writers world with ⟨lists, last, hall⟩ |
      ⟨before, writer, after, lists, middle, e, last, hwriters, hbefore, hfails⟩
    · obtain ⟨payload, -, hlive, hpayload⟩ := payloadKey_of_live source.fileKey_live
        (source.ahead Format.fileKeySize Format.payloadNonceSize)
      rw [source.bytes_fileKey] at hpayload
      exact ⟨_, _, _, last, .written hnone hall rfl hlive hpayload⟩
    · exact ⟨_, _, _, last, .failed hwriters hbefore hfails⟩

/-! ## The result -/

/-- Writers that do not fail leave their stanzas, in order, to the writers after them. -/
theorem collectStanzas_append (h : Wrote fileKey before world lists middle) (done : List Stanza) :
    (collectStanzas fileKey (before ++ after) done).run world =
      (collectStanzas fileKey after (done ++ lists.flatten)).run middle := by
  induction h generalizing done with
  | nil => rw [List.nil_append, List.flatten_nil, List.append_nil]
  | cons hanswer _ ih =>
      rw [List.cons_append, collectStanzas, run_bind_of_run hanswer, List.flatten_cons,
        ← List.append_assoc]
      exact ih _

/-- When no writer fails, the stanzas of all of them are collected. -/
theorem collectStanzas_of_wrote (h : Wrote fileKey writers world lists last) :
    (collectStanzas fileKey writers []).run world = (.ok lists.flatten, last) := by
  rw [← List.append_nil writers, collectStanzas_append h, collectStanzas, List.nil_append]
  rfl

/-- The first writer that fails ends the collection, whatever the writers after it would do. -/
theorem collectStanzas_of_fails (h : Wrote fileKey before world lists middle)
    (hfails : (writer fileKey).run middle = (.error e, last)) :
    (collectStanzas fileKey (before ++ writer :: after) []).run world = (.error e, last) := by
  rw [collectStanzas_append h, collectStanzas, run_bind_of_run hfails]
  rfl

/-- With writers, the file key is drawn and the writers are asked. -/
theorem encryptHeader_of_ne_nil (h : writers ≠ []) {answer : Except Error (List Stanza)}
    (hcollect : (collectStanzas source.fileKey writers []).run world = (answer, last)) :
    (encryptHeader writers source).run world =
      (match answer with
        | .error e => (.error e, ⟨source.byteAt, source.drawn + Format.fileKeySize⟩)
        | .ok stanzas => sealHeader source.fileKey stanzas
            ⟨source.byteAt, source.drawn + Format.fileKeySize⟩, last) := by
  rw [encryptHeader, if_neg (by rw [List.isEmpty_iff]; exact h), generateFileKey_eq]
  dsimp only
  rw [run_bind_of_run hcollect]
  cases answer with
  | error e => rfl
  | ok stanzas => rfl

/-- The result is the one that was described, and as many bytes are drawn. -/
theorem EncryptOutcome.run_eq (h : EncryptOutcome source writers world result drawn asked last) :
    (encryptHeader writers source).run world =
      ((result, ⟨source.byteAt, source.drawn + drawn⟩), last) := by
  cases h with
  | nobody hnone =>
      subst hnone
      rfl
  | failed hwriters hbefore hfails =>
      subst hwriters
      rw [encryptHeader_of_ne_nil (by simp) (collectStanzas_of_fails hbefore hfails)]
  | written hsome hall hcovered hlive hpayload =>
      subst hcovered
      obtain ⟨key, hkey, hseal⟩ := sealHeader_of_live source.fileKey_live
        (source.draw_behind Format.fileKeySize Format.payloadNonceSize) _
      rw [← source.bytes_fileKey] at hpayload
      have hderived := (payloadKey_eq_ok_iff source.fileKey_live).mpr ⟨hlive, hpayload⟩
      obtain rfl := Except.ok.inj (hkey.symm.trans hderived)
      rw [encryptHeader_of_ne_nil hsome (collectStanzas_of_wrote hall)]
      dsimp only
      rw [hseal]
      rfl

/-! ## The calls -/

/-- A call of a writer: its place among the writers, and the file key that it was given. -/
structure WriterCall where
  place : Nat
  fileKey : FileKey

/-- The writer at a place, which puts each of its calls on record. -/
def loggedAt (place : Nat) (writer : StanzaWriter (StateM σ)) :
    StanzaWriter (StateM (σ × List WriterCall)) :=
  fun fileKey (world, calls) =>
    let (answer, after) := (writer fileKey).run world
    (answer, after, calls ++ [⟨place, fileKey⟩])

/-- Writers that put their calls on record. -/
def logged (writers : List (StanzaWriter (StateM σ))) :
    List (StanzaWriter (StateM (σ × List WriterCall))) :=
  writers.mapIdx loggedAt

/-- One call of each of the first `asked` writers in order, all with this file key. -/
def writerCalls (fileKey : FileKey) (asked : Nat) : List WriterCall :=
  (List.range asked).map fun place => ⟨place, fileKey⟩

/-- Putting calls on record keeps the number of writers. -/
theorem length_logged (writers : List (StanzaWriter (StateM σ))) :
    (logged writers).length = writers.length :=
  List.length_mapIdx

/-- A writer that puts its calls on record answers as it does without. -/
theorem run_loggedAt {answer : Except Error (List Stanza)} (place : Nat) (calls : List WriterCall)
    (h : (writer fileKey).run world = (answer, middle)) :
    (loggedAt place writer fileKey).run (world, calls) =
      (answer, middle, calls ++ [⟨place, fileKey⟩]) := by
  show (((writer fileKey).run world).1, ((writer fileKey).run world).2, _) = _
  rw [h]

/-- Writers that do not fail are on record with one call each; the first of them stands at
`place`. -/
theorem Wrote.onRecordFrom (place : Nat) (calls : List WriterCall)
    (h : Wrote fileKey writers world lists last) :
    Wrote fileKey (writers.mapIdx fun index => loggedAt (place + index)) (world, calls) lists
      (last, calls ++ (List.range' place writers.length).map fun place => ⟨place, fileKey⟩) := by
  induction h generalizing place calls with
  | nil =>
      rw [List.length_nil, List.range'_zero, List.map_nil, List.append_nil]
      exact .nil
  | cons hanswer _ ih =>
      have hrest := ih (place + 1) (calls ++ [⟨place, fileKey⟩])
      rw [List.append_assoc, List.singleton_append] at hrest
      simp only [Nat.add_right_comm place 1] at hrest
      rw [List.mapIdx_cons]
      exact .cons (run_loggedAt place calls hanswer) hrest

/-- Writers that do not fail are on record with one call each. -/
theorem Wrote.onRecord (h : Wrote fileKey writers world lists last) :
    Wrote fileKey (logged writers) (world, []) lists
      (last, writerCalls fileKey writers.length) := by
  have hfrom := h.onRecordFrom 0 []
  simp only [Nat.zero_add, List.nil_append, ← List.range_eq_range'] at hfrom
  exact hfrom

/-- The record shows one call of each writer that was asked. -/
theorem EncryptOutcome.onRecord (h : EncryptOutcome source writers world result drawn asked last) :
    EncryptOutcome source (logged writers) (world, []) result drawn asked
      (last, writerCalls source.fileKey asked) := by
  cases h with
  | nobody hnone =>
      subst hnone
      exact .nobody rfl
  | @failed before after writer _ _ _ _ hwriters hbefore hfails =>
      have hsplit : logged writers = logged before ++ loggedAt before.length writer ::
          after.mapIdx fun index => loggedAt (index + 1 + before.length) := by
        rw [hwriters, logged, List.mapIdx_append, List.mapIdx_cons, Nat.zero_add]
        rfl
      have hfailed := EncryptOutcome.failed hsplit hbefore.onRecord
        (run_loggedAt before.length _ hfails)
      rw [length_logged] at hfailed
      rw [writerCalls, List.range_succ, List.map_append]
      exact hfailed
  | written hsome hall hcovered hlive hpayload =>
      have hlogged : logged writers ≠ [] := List.mapIdx_ne_nil_iff.mpr hsome
      have hwritten := EncryptOutcome.written hlogged hall.onRecord hcovered hlive hpayload
      rw [length_logged] at hwritten
      exact hwritten

/-- Writing the beginning of a file always comes out in one of the ways described, and only one.
Without writers nothing is drawn. Otherwise a file key is drawn, and the writers are called one
after the other with it, up to the first that fails, whose error is passed on; a record of the calls
shows each of these once and none of the others. When none fails, a nonce is drawn, and the result
is the header for their stanzas in order, its MAC and the nonce, with the payload key that these
determine. -/
theorem encryptHeader_outcome (source : RandomSource) (writers : List (StanzaWriter (StateM σ)))
    (world : σ) :
    (∃ result drawn asked last, EncryptOutcome source writers world result drawn asked last) ∧
    ∀ result drawn asked last, EncryptOutcome source writers world result drawn asked last →
      (encryptHeader writers source).run world =
        ((result, ⟨source.byteAt, source.drawn + drawn⟩), last) ∧
      (encryptHeader (logged writers) source).run (world, []) =
        ((result, ⟨source.byteAt, source.drawn + drawn⟩), last,
          writerCalls source.fileKey asked) :=
  ⟨exists_encryptOutcome source writers world, fun _ _ _ _ h => ⟨h.run_eq, h.onRecord.run_eq⟩⟩

/-- Of three writers the second one fails: the third is not called, and no nonce is drawn. -/
example (source : RandomSource) (e : Error) :
    let writers : List (StanzaWriter (StateM Unit)) :=
      [fun _ => pure (.ok []), fun _ => pure (.error e), fun _ => pure (.ok [])]
    (encryptHeader (logged writers) source).run ((), []) =
      ((.error e, ⟨source.byteAt, source.drawn + 16⟩), (),
        [⟨0, source.fileKey⟩, ⟨1, source.fileKey⟩]) := rfl

end AgeFile
