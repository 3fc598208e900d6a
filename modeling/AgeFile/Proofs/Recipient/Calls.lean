import AgeFile.Proofs.Except
import AgeFile.Recipient.Resolution

/-!
# Which readers are called

The readers here may act and change the state of the world while they answer. Read `Resolved` first:
it says how asking readers in order can come out, and how many of them are called. The main
statement, `resolveFileKey_resolved`, is that it always comes out in one of these ways, and that a
record of the calls shows each of these readers once, with all stanzas, and none of those after
them.
-/

namespace AgeFile

variable {σ : Type}

/-- An answer without a key, and the cause that is kept for it. -/
inductive Refusal : Except Error (Option FileKey) → Error → Prop
  /-- No stanza is addressed to the reader. -/
  | silence : Refusal (.ok none) .noFileKey
  /-- The reader fails. -/
  | failure {e : Error} : Refusal (.error e) e

/-- Readers are called one after the other, each once and with the same stanzas, and none of them
yields a key: the state of the world before, a cause for each reader, and the state of the world
afterwards. -/
inductive Declined (stanzas : List Stanza) :
    List (StanzaReader (StateM σ)) → σ → List Error → σ → Prop
  | nil {world : σ} : Declined stanzas [] world [] world
  | cons {reader : StanzaReader (StateM σ)} {readers : List (StanzaReader (StateM σ))}
      {answer : Except Error (Option FileKey)} {world middle last : σ} {cause : Error}
      {causes : List Error} :
      (reader stanzas).run world = (answer, middle) → Refusal answer cause →
      Declined stanzas readers middle causes last →
      Declined stanzas (reader :: readers) world (cause :: causes) last

/-- How asking readers in order comes out: the result, the number of readers that were called, and
the state of the world afterwards. -/
inductive Resolved (stanzas : List Stanza) (readers : List (StanzaReader (StateM σ))) (world : σ) :
    Except Error FileKey → Nat → σ → Prop
  /-- A reader yields a key, and none before it did. -/
  | found {before after : List (StanzaReader (StateM σ))} {reader : StanzaReader (StateM σ)}
      {causes : List Error} {middle last : σ} {key : FileKey}
      (hreaders : readers = before ++ reader :: after)
      (hbefore : Declined stanzas before world causes middle)
      (hyields : (reader stanzas).run middle = (.ok (some key), last)) :
      Resolved stanzas readers world (.ok key) (before.length + 1) last
  /-- There is one reader, and its cause is passed on. -/
  | lone {cause : Error} {last : σ} (hreaders : readers.length = 1)
      (hdeclined : Declined stanzas readers world [cause] last) :
      Resolved stanzas readers world (.error cause) 1 last
  /-- There are several readers or none, and their causes are listed. -/
  | unsupported {causes : List Error} {last : σ} (hreaders : readers.length ≠ 1)
      (hdeclined : Declined stanzas readers world causes last) :
      Resolved stanzas readers world (.error (.noSupportedRecipient causes)) readers.length last

variable {stanzas : List Stanza} {readers before after : List (StanzaReader (StateM σ))}
  {reader : StanzaReader (StateM σ)} {world middle last : σ} {causes found : List Error}
  {key : FileKey} {result : Except Error FileKey} {asked : Nat}

/-- An answer holds a key or is a refusal. -/
theorem yields_or_refuses (answer : Except Error (Option FileKey)) :
    (∃ key, answer = .ok (some key)) ∨ ∃ cause, Refusal answer cause := by
  cases answer with
  | error e => exact Or.inr ⟨e, .failure⟩
  | ok yielded =>
      cases yielded with
      | none => exact Or.inr ⟨_, .silence⟩
      | some key => exact Or.inl ⟨key, rfl⟩

/-- There is one cause for each of the readers. -/
theorem Declined.length_eq (h : Declined stanzas readers world found last) :
    found.length = readers.length := by
  induction h with
  | nil => rfl
  | cons _ _ _ ih => rw [List.length_cons, ih, List.length_cons]

/-- None of the readers yields a key, or one of them is the first that does. -/
theorem declined_or_yields (stanzas : List Stanza) (readers : List (StanzaReader (StateM σ)))
    (world : σ) :
    (∃ causes last, Declined stanzas readers world causes last) ∨
      ∃ before reader after causes middle key last, readers = before ++ reader :: after ∧
        Declined stanzas before world causes middle ∧
        (reader stanzas).run middle = (.ok (some key), last) := by
  induction readers generalizing world with
  | nil => exact Or.inl ⟨[], world, .nil⟩
  | cons reader readers ih =>
      cases hanswer : (reader stanzas).run world with
      | mk answer middle =>
          rcases yields_or_refuses answer with ⟨key, rfl⟩ | ⟨cause, hcause⟩
          · exact Or.inr ⟨[], reader, readers, [], world, key, middle, rfl, .nil, hanswer⟩
          · rcases ih middle with ⟨causes, last, hrest⟩ |
              ⟨before, first, after, causes, state, key, last, rfl, hbefore, hyields⟩
            · exact Or.inl ⟨_, last, .cons hanswer hcause hrest⟩
            · exact Or.inr ⟨reader :: before, first, after, _, state, key, last, rfl,
                .cons hanswer hcause hbefore, hyields⟩

/-- Asking readers in order always comes out in one of these ways. -/
theorem exists_resolved (stanzas : List Stanza) (readers : List (StanzaReader (StateM σ)))
    (world : σ) : ∃ result asked last, Resolved stanzas readers world result asked last := by
  rcases declined_or_yields stanzas readers world with ⟨causes, last, hdeclined⟩ |
    ⟨before, reader, after, causes, middle, key, last, hreaders, hbefore, hyields⟩
  · by_cases hone : readers.length = 1
    · obtain ⟨cause, rfl⟩ := List.length_eq_one_iff.mp (hdeclined.length_eq.trans hone)
      exact ⟨_, _, last, .lone hone hdeclined⟩
    · exact ⟨_, _, last, .unsupported hone hdeclined⟩
  · exact ⟨_, _, last, .found hreaders hbefore hyields⟩

/-! ## The result -/

/-- What comes after a step goes on from its answer and from the state that it left. -/
theorem run_bind_of_run {α β : Type} {first : StateM σ α} {answer : α}
    (h : first.run world = (answer, middle)) (rest : α → StateM σ β) :
    (first >>= rest).run world = (rest answer).run middle := by
  rw [StateT.run_bind, h]
  rfl

/-- Readers that yield no key leave their causes to the readers after them. -/
theorem tryReaders_append (h : Declined stanzas before world found middle) :
    (tryReaders stanzas (before ++ after) causes).run world =
      (tryReaders stanzas after (found.reverse ++ causes)).run middle := by
  induction h generalizing causes with
  | nil => rfl
  | cons hanswer hcause _ ih =>
      rw [List.cons_append, tryReaders, run_bind_of_run hanswer, List.reverse_cons,
        List.append_assoc, List.singleton_append]
      cases hcause with
      | silence | failure => exact ih

/-- When no reader yields a key, there are the causes of all of them. -/
theorem tryReaders_of_declined (h : Declined stanzas readers world found last) :
    (tryReaders stanzas readers []).run world = (.error found, last) := by
  rw [← List.append_nil readers, tryReaders_append h, List.append_nil, tryReaders,
    List.reverse_reverse]
  rfl

/-- The first key that a reader yields is found, whatever the readers after it would answer. -/
theorem tryReaders_of_yields (h : Declined stanzas before world found middle)
    (hyields : (reader stanzas).run middle = (.ok (some key), last)) :
    (tryReaders stanzas (before ++ reader :: after) []).run world = (.ok key, last) := by
  rw [tryReaders_append h, tryReaders, run_bind_of_run hyields]
  rfl

/-- The result is the one that was described. -/
theorem Resolved.run_eq (h : Resolved stanzas readers world result asked last) :
    (resolveFileKey stanzas readers).run world = (result, last) := by
  rw [resolveFileKey]
  cases h with
  | found hreaders hbefore hyields =>
      rw [hreaders, run_bind_of_run (tryReaders_of_yields hbefore hyields)]
      rfl
  | lone _ hdeclined =>
      rw [run_bind_of_run (tryReaders_of_declined hdeclined)]
      rfl
  | @unsupported causes _ hreaders hdeclined =>
      rw [run_bind_of_run (tryReaders_of_declined hdeclined)]
      rw [← hdeclined.length_eq] at hreaders
      match causes, hreaders with
      | [], _ => rfl
      | first :: second :: others, _ => rfl

/-- Unlocking checks the MAC under the key that was found, and calls no further reader. -/
theorem Resolved.unlock_eq {header : Header}
    (h : Resolved header.stanzas readers world result asked last) :
    (unlockHeader header readers).run world =
      (result >>= fun key => (header.verifyMac key).map fun () => key, last) := by
  rw [unlockHeader, run_bind_of_run h.run_eq]
  cases result with
  | error e => rfl
  | ok key =>
      dsimp only
      rw [ok_bind]
      cases header.verifyMac key with
      | error e => rfl
      | ok done => rfl

/-! ## The calls -/

/-- A call of a reader: its place among the readers, and the stanzas that it was given. -/
structure ReaderCall where
  place : Nat
  stanzas : List Stanza

/-- The reader at a place, which puts each of its calls on record. -/
def recordedAt (place : Nat) (reader : StanzaReader (StateM σ)) :
    StanzaReader (StateM (σ × List ReaderCall)) :=
  fun stanzas (world, calls) =>
    let (answer, after) := (reader stanzas).run world
    (answer, after, calls ++ [⟨place, stanzas⟩])

/-- Readers that put their calls on record; the first of them stands at `place`. -/
def recordedFrom (place : Nat) :
    List (StanzaReader (StateM σ)) → List (StanzaReader (StateM (σ × List ReaderCall)))
  | [] => []
  | reader :: readers => recordedAt place reader :: recordedFrom (place + 1) readers

/-- One call of each of `asked` readers in order, all with these stanzas; the first of the readers
stands at `place`. -/
def callsFrom (place : Nat) (stanzas : List Stanza) (asked : Nat) : List ReaderCall :=
  (List.range' place asked).map fun place => ⟨place, stanzas⟩

/-- Readers after others stand at the places after theirs. -/
theorem recordedFrom_append (place : Nat) (before after : List (StanzaReader (StateM σ))) :
    recordedFrom place (before ++ after) =
      recordedFrom place before ++ recordedFrom (place + before.length) after := by
  induction before generalizing place with
  | nil => rfl
  | cons reader before ih =>
      rw [List.cons_append, recordedFrom, ih, recordedFrom, List.cons_append, List.length_cons,
        Nat.add_right_comm, Nat.add_assoc]

/-- Putting calls on record keeps the number of readers. -/
theorem length_recordedFrom (place : Nat) (readers : List (StanzaReader (StateM σ))) :
    (recordedFrom place readers).length = readers.length := by
  induction readers generalizing place with
  | nil => rfl
  | cons reader readers ih => rw [recordedFrom, List.length_cons, ih, List.length_cons]

/-- A reader that puts its calls on record answers as it does without. -/
theorem run_recordedAt {answer : Except Error (Option FileKey)} (place : Nat)
    (calls : List ReaderCall) (h : (reader stanzas).run world = (answer, middle)) :
    (recordedAt place reader stanzas).run (world, calls) =
      (answer, middle, calls ++ [⟨place, stanzas⟩]) := by
  show (((reader stanzas).run world).1, ((reader stanzas).run world).2, _) = _
  rw [h]

/-- Readers that yield no key are on record with one call each. -/
theorem Declined.recorded (place : Nat) (calls : List ReaderCall)
    (h : Declined stanzas readers world found last) :
    Declined stanzas (recordedFrom place readers) (world, calls) found
      (last, calls ++ callsFrom place stanzas readers.length) := by
  induction h generalizing place calls with
  | nil =>
      rw [List.length_nil, callsFrom, List.range'_zero, List.map_nil, List.append_nil]
      exact .nil
  | cons hanswer hcause _ ih =>
      have hrest := ih (place + 1) (calls ++ [⟨place, stanzas⟩])
      rw [List.append_assoc, List.singleton_append] at hrest
      exact .cons (run_recordedAt place calls hanswer) hcause hrest

/-- One more call comes after the others. -/
theorem callsFrom_succ (stanzas : List Stanza) (asked : Nat) :
    callsFrom 0 stanzas (asked + 1) = callsFrom 0 stanzas asked ++ [⟨asked, stanzas⟩] := by
  rw [callsFrom, callsFrom, List.range'_1_concat, List.map_append, Nat.zero_add]
  rfl

/-- The record shows one call of each reader that was asked. -/
theorem Resolved.recorded (h : Resolved stanzas readers world result asked last) :
    Resolved stanzas (recordedFrom 0 readers) (world, []) result asked
      (last, callsFrom 0 stanzas asked) := by
  have hlength := length_recordedFrom 0 readers
  cases h with
  | @found before after reader causes middle last key hreaders hbefore hyields =>
      have hsplit : recordedFrom 0 readers = recordedFrom 0 before ++
          recordedAt before.length reader :: recordedFrom (before.length + 1) after := by
        rw [hreaders, recordedFrom_append, Nat.zero_add, recordedFrom]
      have hfound := Resolved.found hsplit (hbefore.recorded 0 [])
        (run_recordedAt before.length _ hyields)
      rw [length_recordedFrom, List.nil_append, ← callsFrom_succ] at hfound
      exact hfound
  | lone hreaders hdeclined =>
      have hrecorded := hdeclined.recorded 0 []
      rw [hreaders, List.nil_append] at hrecorded
      exact .lone (hlength.trans hreaders) hrecorded
  | unsupported hreaders hdeclined =>
      have hlisted := Resolved.unsupported (by rwa [hlength]) (hdeclined.recorded 0 [])
      rw [hlength, List.nil_append] at hlisted
      exact hlisted

/-- Asking readers in order always comes out in one of the ways described, and only one: the readers
are called one after the other, up to the first that yields a key, and a record of the calls shows
each of these once, with all stanzas, and none of the others. Unlocking a header calls the same
readers and no other, and yields the key that was found if the MAC verifies under it; otherwise the
error of the check is passed on. -/
theorem resolveFileKey_resolved (stanzas : List Stanza) (readers : List (StanzaReader (StateM σ)))
    (world : σ) :
    (∃ result asked last, Resolved stanzas readers world result asked last) ∧
    ∀ result asked last, Resolved stanzas readers world result asked last →
      (resolveFileKey stanzas readers).run world = (result, last) ∧
      (resolveFileKey stanzas (recordedFrom 0 readers)).run (world, []) =
        (result, last, callsFrom 0 stanzas asked) ∧
      ∀ header : Header, header.stanzas = stanzas →
        let unlocked := result >>= fun key => (header.verifyMac key).map fun () => key
        (unlockHeader header readers).run world = (unlocked, last) ∧
        (unlockHeader header (recordedFrom 0 readers)).run (world, []) =
          (unlocked, last, callsFrom 0 stanzas asked) := by
  refine ⟨exists_resolved stanzas readers world, ?_⟩
  intro result asked last h
  refine ⟨h.run_eq, h.recorded.run_eq, ?_⟩
  rintro header rfl
  exact ⟨h.unlock_eq, h.recorded.unlock_eq⟩

/-- A silent reader and one that yields a key are called, and the third one is not. -/
example (key other : FileKey) (stanza : Stanza) :
    let readers : List (StanzaReader (StateM Unit)) :=
      [fun _ => pure (.ok none), fun _ => pure (.ok (some key)), fun _ => pure (.ok (some other))]
    (resolveFileKey [stanza] (recordedFrom 0 readers)).run ((), []) =
      (.ok key, (), [⟨0, [stanza]⟩, ⟨1, [stanza]⟩]) := rfl

end AgeFile
