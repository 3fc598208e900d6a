import AgeFile.Proofs.Cipher.Wrapping
import AgeFile.Proofs.Header.Authentication
import AgeFile.Proofs.Key.Step

/-!
# What becomes of a key

A key reads as the bytes that it was made of until it is destroyed, and from then on as nothing.
Read `key?_run_of_notMem` and `key?_run_of_mem` first: they say what a key is after every sequence
of operations. `step_of_destroyed` says how an operation fails on keys of which some were destroyed,
and that it changes nothing. The main statement, `lifecycle`, puts these together.
-/

namespace AgeFile.Keyring

variable {ring : Keyring} {name : KeyName} {key : Key name.kind} {kind : KeyKind}
  {operation : Operation} {operations : List Operation} {reply : Answer} {after : Keyring}

/-! ## Keys after any operations -/

/-- A key changes in no way but by being destroyed itself. -/
theorem Step.key?_eq (h : Step ring operation reply after) (hkey : ring.key? name = some key)
    (hother : operation ≠ .destroy name) : after.key? name = some key := by
  cases h with
  | missing | failed | observed | opened | appended => exact hkey
  | made bytes => exact key?_add_of_some hkey _
  | @destroyed other =>
      have hne : name ≠ other := by
        rintro rfl
        exact hother rfl
      rw [key?_put_of_ne hne, hkey]

/-- Destroying a key that is there zeroes it and makes it unreadable. -/
theorem step_destroy (hkey : ring.key? name = some key) :
    ring.step (.destroy name) = (some (.ok (.value .done)), ring.put name key.destroy) := by
  rw [step, withKey, hkey]

/-- A key stays as it is through operations that do not destroy it. -/
theorem key?_run_of_notMem (hkey : ring.key? name = some key)
    (hkeeps : .destroy name ∉ operations) : (ring.run operations).2.key? name = some key := by
  induction operations generalizing ring with
  | nil => exact hkey
  | cons operation operations ih =>
      have hother : operation ≠ .destroy name := fun h => hkeeps (h ▸ List.mem_cons_self)
      exact ih ((step_step ring operation).key?_eq hkey hother)
        fun hmem => hkeeps (List.mem_cons_of_mem operation hmem)

/-- A key that is destroyed stays zeroed and unreadable for ever. -/
theorem key?_run_of_mem (hkey : ring.key? name = some key)
    (hdestroys : .destroy name ∈ operations) :
    (ring.run operations).2.key? name = some key.destroy := by
  -- Induction over the operations: what was destroyed once may be destroyed again without a change.
  induction operations generalizing ring key with
  | nil => exact absurd hdestroys List.not_mem_nil
  | cons operation operations ih =>
      rw [run]
      by_cases hnow : operation = .destroy name
      · subst hnow
        rw [step_destroy hkey]
        have hafter := key?_put_self hkey key.destroy
        by_cases hagain : .destroy name ∈ operations
        · exact (ih hafter hagain :)
        · exact key?_run_of_notMem hafter hagain
      · have hlater : .destroy name ∈ operations := by
          rcases List.mem_cons.mp hdestroys with hsame | hmem
          · exact absurd hsame.symm hnow
          · exact hmem
        exact ih ((step_step ring operation).key?_eq hkey hnow) hlater

/-- What was in the place of a key that is destroyed first does not matter. -/
theorem run_destroy_put (ring : Keyring) (name : KeyName) (key other : Key name.kind)
    (operations : List Operation) :
    (ring.put name key).run (.destroy name :: operations) =
      (ring.put name other).run (.destroy name :: operations) := by
  have hsame : (ring.put name key).step (.destroy name) =
      (ring.put name other).step (.destroy name) := by
    cases hfound : ring.key? name with
    | none => rw [put_of_none hfound, put_of_none hfound]
    | some found =>
        rw [step_destroy (key?_put_self hfound key), step_destroy (key?_put_self hfound other),
          put_put, put_put]
        rfl
  rw [run, run, hsame]

/-! ## Cipher contexts -/

/-- A cipher context never changes. -/
theorem Step.contexts_eq {place : Nat} {context : CipherContext}
    (h : Step ring operation reply after) (hcontext : ring.contexts[place]? = some context) :
    after.contexts[place]? = some context := by
  cases h with
  | missing | failed | observed | made | destroyed | appended => exact hcontext
  | opened new =>
      obtain ⟨hplace, -⟩ := List.getElem?_eq_some_iff.mp hcontext
      show (ring.contexts ++ [new])[place]? = some context
      rw [List.getElem?_append_left hplace, hcontext]

/-- A cipher context stays as it is through all operations. -/
theorem contexts_run {place : Nat} {context : CipherContext}
    (hcontext : ring.contexts[place]? = some context) (operations : List Operation) :
    (ring.run operations).2.contexts[place]? = some context := by
  induction operations generalizing ring with
  | nil => exact hcontext
  | cons operation operations ih => exact ih ((step_step ring operation).contexts_eq hcontext)

/-! ## Operations on destroyed keys -/

variable {first : KeyName} {others : List KeyName}

/-- A key is found to be destroyed, or not, by its mark. -/
theorem isDestroyed_of_key? (h : ring.key? name = some key) :
    ring.isDestroyed name = key.destroyed := by
  rw [isDestroyed, h, Option.any_some]

/-- An operation on a key that is there answers what it answers for every key. -/
theorem withKey_of_isSome {act : Key name.kind → Answer × Keyring}
    (hpresent : (ring.key? name).isSome) (h : ∀ key, (act key).1 = reply) :
    (ring.withKey name act).1 = reply := by
  obtain ⟨key, hkey⟩ := Option.isSome_iff_exists.mp hpresent
  rw [withKey, hkey]
  exact h key

/-- An operation on keys that are there fails on the first of them that was destroyed if it fails on
its own key when this one was, and on the others when it was not. -/
theorem withKey_of_destroyed {act : Key name.kind → Answer × Keyring}
    (hpresent : ∀ other ∈ name :: others, (ring.key? other).isSome)
    (hfirst : (name :: others).find? ring.isDestroyed = some first)
    (hown : ∀ key : Key name.kind, key.destroyed = true →
      (act key).1 = some (.error (.keyDestroyed name.kind.name)))
    (hothers : ∀ key : Key name.kind, key.destroyed = false →
      others.find? ring.isDestroyed = some first →
      (act key).1 = some (.error (.keyDestroyed first.kind.name))) :
    (ring.withKey name act).1 = some (.error (.keyDestroyed first.kind.name)) := by
  obtain ⟨key, hkey⟩ := Option.isSome_iff_exists.mp (hpresent name List.mem_cons_self)
  have hmark := isDestroyed_of_key? hkey
  rw [withKey, hkey]
  cases hlive : key.destroyed with
  | true =>
      rw [List.find?_cons_of_pos (hmark.trans hlive)] at hfirst
      obtain rfl := Option.some.inj hfirst
      exact hown key hlive
  | false =>
      rw [List.find?_cons_of_neg (by rw [hmark, hlive]; exact Bool.false_ne_true)] at hfirst
      exact hothers key hlive hfirst

/-- An operation on one key that was destroyed fails if it fails on all such keys. -/
theorem withKey_of_destroyed_one {act : Key name.kind → Answer × Keyring}
    (hpresent : ∀ other ∈ [name], (ring.key? other).isSome)
    (hfirst : [name].find? ring.isDestroyed = some first)
    (hown : ∀ key : Key name.kind, key.destroyed = true →
      (act key).1 = some (.error (.keyDestroyed name.kind.name))) :
    (ring.withKey name act).1 = some (.error (.keyDestroyed first.kind.name)) :=
  withKey_of_destroyed hpresent hfirst hown fun _ _ hnone => absurd hnone (by simp)

/-- An operation on two keys fails on the first of them that was destroyed if it fails whenever its
first key was destroyed, and whenever its second key was and the first one was not. -/
theorem withKey_of_destroyed_two {second : KeyName}
    {act : Key name.kind → Key second.kind → Answer × Keyring}
    (hpresent : ∀ other ∈ [name, second], (ring.key? other).isSome)
    (hfirst : [name, second].find? ring.isDestroyed = some first)
    (hown : ∀ (key : Key name.kind) (other : Key second.kind), key.destroyed = true →
      (act key other).1 = some (.error (.keyDestroyed name.kind.name)))
    (hother : ∀ (key : Key name.kind) (other : Key second.kind), key.destroyed = false →
      other.destroyed = true →
      (act key other).1 = some (.error (.keyDestroyed second.kind.name))) :
    (ring.withKey name fun key => ring.withKey second fun other => act key other).1 =
      some (.error (.keyDestroyed first.kind.name)) := by
  have hsecond : ∀ other ∈ [second], (ring.key? other).isSome :=
    fun other hmem => hpresent other (List.mem_cons_of_mem name hmem)
  refine withKey_of_destroyed hpresent hfirst ?_ ?_
  · intro key hkey
    exact withKey_of_isSome (hsecond second List.mem_cons_self) fun other => hown key other hkey
  · intro key hlive hrest
    exact withKey_of_destroyed_one hsecond hrest fun other => hother key other hlive

/-- The error of an operation is its answer. -/
theorem answer_of_error {α : Type} {result : Except Error α} {e : Error} (h : result = .error e)
    (f : α → Value) : (ring.answer (result.map f)).1 = some (.error e) := by
  rw [h]
  rfl

/-- The error of an operation that makes a key is its answer. -/
theorem keep_of_error {result : Except Error (Key kind)} {e : Error} (h : result = .error e) :
    (ring.keep result).1 = some (.error e) := by
  rw [h]
  rfl

/-- An operation on keys that are all there, some of them destroyed, fails by naming the kind of the
first of these that it reads. -/
theorem answer_of_destroyed (hpresent : ∀ other ∈ operation.reads, (ring.key? other).isSome)
    (hfirst : operation.reads.find? ring.isDestroyed = some first) :
    (ring.step operation).1 = some (.error (.keyDestroyed first.kind.name)) := by
  -- Each operation fails as the function does that it stands for.
  cases operation with
  | make | destroy | encrypt | decrypt => exact absurd hfirst (by simp [Operation.reads])
  | read =>
      exact withKey_of_destroyed_one hpresent hfirst fun _ h =>
        answer_of_error (Key.read_of_destroyed h) _
  | tag =>
      exact withKey_of_destroyed_one hpresent hfirst fun _ h =>
        answer_of_error (Key.tag_of_destroyed h _) _
  | verifyTag =>
      exact withKey_of_destroyed_one hpresent hfirst fun _ h =>
        answer_of_error (Key.verifyTag_of_destroyed h _ _) _
  | extract =>
      exact withKey_of_destroyed_one hpresent hfirst fun _ h =>
        keep_of_error (Key.extract_of_destroyed h _)
  | expand =>
      exact withKey_of_destroyed_one hpresent hfirst fun _ h =>
        answer_of_error (Key.expand_of_destroyed h _) _
  | deriveKey =>
      exact withKey_of_destroyed_one hpresent hfirst fun _ h =>
        keep_of_error (deriveKey_of_destroyed h _ _)
  | headerKey =>
      exact withKey_of_destroyed_one hpresent hfirst fun _ h =>
        keep_of_error (headerKey_of_destroyed h)
  | payloadKey =>
      exact withKey_of_destroyed_one hpresent hfirst fun _ h =>
        keep_of_error (payloadKey_of_destroyed h _)
  | newContext =>
      refine withKey_of_destroyed_one hpresent hfirst fun _ h => ?_
      rw [CipherContext.create_of_destroyed h]
      rfl
  | sealChunk =>
      refine withKey_of_destroyed_one hpresent hfirst fun _ h => ?_
      rw [AgeFile.sealChunk, CipherContext.create_of_destroyed h]
      rfl
  | openChunk =>
      refine withKey_of_destroyed_one hpresent hfirst fun _ h => ?_
      rw [AgeFile.openChunk, CipherContext.create_of_destroyed h]
      rfl
  | wrapFileKey =>
      exact withKey_of_destroyed_two hpresent hfirst
        (fun _ _ h => keep_of_error (wrapFileKey_of_wrapKey_destroyed h))
        (fun _ _ hwrap h => keep_of_error (wrapFileKey_of_fileKey_destroyed hwrap h))
  | unwrapFileKey =>
      exact withKey_of_destroyed_two hpresent hfirst
        (fun _ _ h => keep_of_error (unwrapFileKey_of_wrapKey_destroyed h))
        (fun _ _ hwrap h => keep_of_error (unwrapFileKey_of_wrapped_destroyed hwrap h))
  | appendMac =>
      refine withKey_of_destroyed_one hpresent hfirst fun key h => ?_
      rw [Header.appendMac_of_destroyed h]
      rfl
  | verifyMac =>
      exact withKey_of_destroyed_one hpresent hfirst fun _ h =>
        answer_of_error (Header.verifyMacOf_of_destroyed h _ _) _
  | encodeHeader =>
      exact withKey_of_destroyed_one hpresent hfirst fun _ h =>
        answer_of_error (Header.encode_of_destroyed h _) _
  | verifyHeader =>
      exact withKey_of_destroyed_one hpresent hfirst fun _ h =>
        answer_of_error (Header.verifyMac_of_destroyed h _) _

/-- An operation that fails on keys which were destroyed changes nothing. -/
theorem step_of_destroyed (hpresent : ∀ other ∈ operation.reads, (ring.key? other).isSome)
    (hfirst : operation.reads.find? ring.isDestroyed = some first) :
    ring.step operation = (some (.error (.keyDestroyed first.kind.name)), ring) := by
  have hanswer := answer_of_destroyed hpresent hfirst
  exact Prod.ext hanswer (step_of_error hanswer)

/-- A wrapping key is read before the file key, so it is named when both were destroyed. -/
example :
    let ring : Keyring := ⟨fun _ => [], [], fun _ => []⟩
    (ring.run [.make .cipher (List.replicate 32 1), .make .file (List.replicate 16 2),
      .destroy ⟨.file, 0⟩, .wrapFileKey 0 0, .destroy ⟨.cipher, 0⟩, .wrapFileKey 0 0]).1 =
      [some (.ok (.made ⟨.cipher, 0⟩)), some (.ok (.made ⟨.file, 0⟩)),
        some (.ok (.value .done)), some (.error (.keyDestroyed "file key")),
        some (.ok (.value .done)), some (.error (.keyDestroyed "cipher key"))] := rfl

/-- An operation that reads a key which was destroyed fails by naming the kind of the first such
key, and changes nothing. -/
theorem step_of_mem_reads (hkey : ring.key? name = some key) (hdestroyed : key.destroyed = true)
    (hreads : name ∈ operation.reads)
    (hpresent : ∀ other ∈ operation.reads, (ring.key? other).isSome) :
    ∃ first, operation.reads.find? ring.isDestroyed = some first ∧
      ring.step operation = (some (.error (.keyDestroyed first.kind.name)), ring) := by
  have hmark : ring.isDestroyed name = true := (isDestroyed_of_key? hkey).trans hdestroyed
  obtain ⟨first, hfirst⟩ := Option.isSome_iff_exists.mp
    (List.find?_isSome.mpr ⟨name, hreads, hmark⟩)
  exact ⟨first, hfirst, step_of_destroyed hpresent hfirst⟩

/-! ## The life of a key -/

/-- A key can be made of every byte string that has the length of its kind. -/
theorem step_make (ring : Keyring) (bytes : FixedBytes kind.size) :
    ring.step (.make kind bytes.bytes) =
      (some (.ok (.made ⟨kind, (ring.keys kind).length⟩)), ring.add (Key.ofFixed bytes)) := by
  have hmade : Key.ofBytes kind bytes.bytes = .ok (Key.ofFixed bytes) :=
    Key.ofBytes_eq_ok_iff.mpr ⟨bytes, rfl, rfl⟩
  rw [step, hmade, keep]

/-- What was made is a new key, of the given bytes if any were given. -/
theorem exists_key_of_made (h : (ring.step operation).1 = some (.ok (.made name))) :
    ∃ bytes : FixedBytes name.kind.size,
      (∀ given, operation = .make name.kind given → bytes.bytes = given) ∧
        (ring.step operation).2.key? name = some (Key.ofFixed bytes) := by
  have hstep := step_step ring operation
  generalize (ring.step operation).2 = after at hstep ⊢
  rw [h] at hstep
  cases hstep with
  | made bytes hgiven => exact ⟨bytes, hgiven, key?_add_self ring _⟩

/-- A key that was not destroyed is read as the front of its storage. -/
theorem step_read (hkey : ring.key? name = some key) (hlive : key.destroyed = false) :
    ring.step (.read name) = (some (.ok (.value (.bytes key.content.bytes))), ring) := by
  rw [step, withKey, hkey]
  dsimp only
  rw [Key.read_of_live hlive]
  rfl

/-- A cipher context is made of every cipher key that was not destroyed, and holds its bytes. -/
theorem exists_context_of_newContext {place : Nat} {key : CipherKey}
    (hkey : ring.key? ⟨.cipher, place⟩ = some key) (hlive : key.destroyed = false) (nonce : Nonce)
    (direction : Direction) :
    ∃ context after,
      ring.step (.newContext place nonce direction) = (some (.ok (.opened context)), after) ∧
        after.contexts[context]? = some ⟨key.content, nonce, direction⟩ := by
  let held := ring.contexts ++ [⟨key.content, nonce, direction⟩]
  refine ⟨ring.contexts.length, { ring with contexts := held }, ?_, List.getElem?_concat_length⟩
  rw [step, withKey, hkey]
  dsimp only
  rw [CipherContext.create_of_live hlive, keepContext]

/-- The life of a key, whatever else is held and done. A key can be made of every byte string of the
right length. However a key was made, it reads as the same bytes (those given, if any were) until it
is destroyed. From then on its storage is zero, and every operation that reads it fails by naming
the kind of the first destroyed key that it reads, and changes nothing. So it does not matter any
more which key of its kind it was, but the cipher contexts that were made of it work as before. -/
theorem lifecycle (ring : Keyring) :
    (∀ (kind : KeyKind) (bytes : Bytes), bytes.length = kind.size →
      ∃ name, name.kind = kind ∧
        (ring.step (.make kind bytes)).1 = some (.ok (.made name))) ∧
    (∀ operation name, (ring.step operation).1 = some (.ok (.made name)) →
      ∃ bytes : FixedBytes name.kind.size,
        (∀ given, operation = .make name.kind given → bytes.bytes = given) ∧
        ∀ operations,
          let last := ((ring.step operation).2.run operations).2
          (.destroy name ∉ operations →
            last.step (.read name) = (some (.ok (.value (.bytes bytes.bytes))), last)) ∧
          (.destroy name ∈ operations →
            (∃ key, last.key? name = some key ∧ key.destroyed = true ∧
              key.storage.bytes = List.replicate name.kind.storageSize 0) ∧
            ∀ later : Operation, name ∈ later.reads →
              (∀ other ∈ later.reads, (last.key? other).isSome) →
              ∃ first, later.reads.find? last.isDestroyed = some first ∧
                last.step later = (some (.error (.keyDestroyed first.kind.name)), last))) ∧
    (∀ (name : KeyName) (key other : Key name.kind) (operations : List Operation),
      (ring.put name key).run (.destroy name :: operations) =
        (ring.put name other).run (.destroy name :: operations)) ∧
    ∀ (place : Nat) (key : CipherKey) (nonce : Nonce) (direction : Direction),
      ring.key? ⟨.cipher, place⟩ = some key → key.destroyed = false →
      ∃ context after,
        ring.step (.newContext place nonce direction) = (some (.ok (.opened context)), after) ∧
        ∀ operations,
          let last := (after.run operations).2
          let own : CipherContext := ⟨key.content, nonce, direction⟩
          (∀ plaintext, last.step (.encrypt context plaintext) =
            last.answer ((own.encrypt plaintext).map .bytes)) ∧
          ∀ message, last.step (.decrypt context message) =
            last.answer ((own.decrypt message).map .bytes) := by
  refine ⟨?_, ?_, run_destroy_put ring, ?_⟩
  · intro kind bytes hlength
    exact ⟨_, rfl, congrArg Prod.fst (step_make ring ⟨bytes, hlength⟩)⟩
  · intro operation name hmade
    obtain ⟨bytes, hgiven, hkey⟩ := exists_key_of_made hmade
    refine ⟨bytes, hgiven, fun operations => ⟨?_, ?_⟩⟩
    · intro hkeeps
      have hread := step_read (key?_run_of_notMem hkey hkeeps) rfl
      rw [Key.content_ofFixed] at hread
      exact hread
    · intro hdestroys
      have hzero := key?_run_of_mem hkey hdestroys
      exact ⟨⟨_, hzero, rfl, rfl⟩, fun later => step_of_mem_reads hzero rfl⟩
  · intro place key nonce direction hkey hlive
    obtain ⟨context, after, hstep, hcontext⟩ :=
      exists_context_of_newContext hkey hlive nonce direction
    refine ⟨context, after, hstep, fun operations => ?_⟩
    have hlast := contexts_run hcontext operations
    refine ⟨fun plaintext => ?_, fun message => ?_⟩
    · rw [step, withContext, hlast]
    · rw [step, withContext, hlast]

end AgeFile.Keyring
