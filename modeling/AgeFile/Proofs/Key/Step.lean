import AgeFile.Proofs.Except
import AgeFile.Proofs.Key.Keyring

/-!
# What one operation on keys changes

Read `Step` first: it lists all that an operation can change in what is held, apart from the value
that it shows. The main statement is `step_step`: every operation is as described. So one that fails
changes nothing (`step_of_error`).
-/

namespace AgeFile.Keyring

variable {ring : Keyring} {name : KeyName} {kind : KeyKind}

/-- What one operation changes: nothing if it fails or shows a value, and otherwise a new key comes
in, a key is destroyed, a cipher context comes in, or a buffer is written. The other keys, contexts
and buffers stay as they were. -/
inductive Step (ring : Keyring) : Operation → Answer → Keyring → Prop
  /-- A key or a context that the operation asks for is not there. -/
  | missing {operation : Operation} : Step ring operation none ring
  /-- The operation fails. -/
  | failed {operation : Operation} (e : Error) : Step ring operation (some (.error e)) ring
  /-- The operation shows a value. -/
  | observed {operation : Operation} (value : Value) :
      Step ring operation (some (.ok (.value value))) ring
  /-- A new key is made, of the given bytes if any were given. -/
  | made {operation : Operation} {kind : KeyKind} (bytes : FixedBytes kind.size)
      (hgiven : ∀ given, operation = .make kind given → bytes.bytes = given) :
      Step ring operation (some (.ok (.made ⟨kind, (ring.keys kind).length⟩)))
        (ring.add (Key.ofFixed bytes))
  /-- A key is destroyed. -/
  | destroyed {name : KeyName} {key : Key name.kind} (h : ring.key? name = some key) :
      Step ring (.destroy name) (some (.ok (.value .done))) (ring.put name key.destroy)
  /-- A cipher context is made. -/
  | opened {operation : Operation} (context : CipherContext) :
      Step ring operation (some (.ok (.opened ring.contexts.length)))
        { ring with contexts := ring.contexts ++ [context] }
  /-- A MAC is appended to a buffer. -/
  | appended {context : MacContext} {place buffer : Nat} (mac : Mac) :
      Step ring (.appendMac context place buffer) (some (.ok (.value (.bytes mac.bytes))))
        { ring with
          buffers := Function.update ring.buffers buffer
            (ring.buffers buffer ++ Header.encodeFooter mac) }

variable {operation : Operation}

/-- An operation on a key is as described if it is on the key that is found. -/
theorem Step.withKey {act : Key name.kind → Answer × Keyring}
    (h : ∀ key, ring.key? name = some key → Step ring operation (act key).1 (act key).2) :
    Step ring operation (ring.withKey name act).1 (ring.withKey name act).2 := by
  unfold Keyring.withKey
  cases hkey : ring.key? name with
  | none => exact .missing
  | some key => exact h key hkey

/-- An answer without a change is as described. -/
theorem Step.answer (result : Except Error Value) :
    Step ring operation (ring.answer result).1 (ring.answer result).2 := by
  cases result with
  | error e => exact .failed e
  | ok value => exact .observed value

/-- To keep a key is as described if it is a new key. -/
theorem Step.keep {result : Except Error (Key kind)}
    (h : ∀ new, result = .ok new → ∃ bytes, Key.ofFixed bytes = new ∧
      ∀ given, operation = .make kind given → bytes.bytes = given) :
    Step ring operation (ring.keep result).1 (ring.keep result).2 := by
  cases result with
  | error e => exact .failed e
  | ok new =>
      obtain ⟨bytes, rfl, hgiven⟩ := h new rfl
      exact .made bytes hgiven

/-- To keep a context is as described. -/
theorem Step.keepContext (result : Except Error CipherContext) :
    Step ring operation (ring.keepContext result).1 (ring.keepContext result).2 := by
  cases result with
  | error e => exact .failed e
  | ok context => exact .opened context

/-- To use a context is as described. -/
theorem Step.withContext (place : Nat) (act : CipherContext → Except Error Bytes) :
    Step ring operation (ring.withContext place act).1 (ring.withContext place act).2 := by
  unfold Keyring.withContext
  cases ring.contexts[place]? with
  | none => exact .missing
  | some context => exact Step.answer _

/-! ## Keys that operations make -/

/-- An extracted key is new. -/
theorem exists_ofFixed_of_extract {context : MacContext} {salt : MacKey context} {material : Bytes}
    {new : MacKey .extracted} (h : salt.extract material = .ok new) :
    ∃ bytes, Key.ofFixed bytes = new := by
  obtain ⟨bytes, -, hnew⟩ := bind_eq_ok_iff.mp h
  exact ⟨bytes, Except.ok.inj hnew⟩

/-- A derived key is new. -/
theorem exists_ofFixed_of_deriveKey {context : MacContext} {salt : MacKey context}
    {material info : Bytes} {new : CipherKey} (h : deriveKey material salt info = .ok new) :
    ∃ bytes, Key.ofFixed bytes = new := by
  obtain ⟨extracted, -, hexpand⟩ := bind_eq_ok_iff.mp h
  obtain ⟨bytes, -, hnew⟩ := bind_eq_ok_iff.mp hexpand
  exact ⟨bytes, Except.ok.inj hnew⟩

/-- The header key is new. -/
theorem exists_ofFixed_of_headerKey {fileKey : FileKey} {new : MacKey .header}
    (h : headerKey fileKey = .ok new) : ∃ bytes, Key.ofFixed bytes = new := by
  obtain ⟨material, -, hderive⟩ := bind_eq_ok_iff.mp h
  obtain ⟨derived, -, hread⟩ := bind_eq_ok_iff.mp hderive
  obtain ⟨bytes, -, hnew⟩ := bind_eq_ok_iff.mp hread
  exact ⟨bytes, Except.ok.inj hnew⟩

/-- The payload key is new. -/
theorem exists_ofFixed_of_payloadKey {fileKey : FileKey}
    {nonce : FixedBytes Format.payloadNonceSize} {new : CipherKey}
    (h : payloadKey fileKey nonce = .ok new) : ∃ bytes, Key.ofFixed bytes = new := by
  obtain ⟨material, -, hderive⟩ := bind_eq_ok_iff.mp h
  exact exists_ofFixed_of_deriveKey hderive

/-- A wrapped file key is new. -/
theorem exists_ofFixed_of_wrapFileKey {wrapKey : CipherKey} {fileKey : FileKey}
    {new : EncryptedFileKey} (h : wrapFileKey wrapKey fileKey = .ok new) :
    ∃ bytes, Key.ofFixed bytes = new := by
  obtain ⟨context, -, hread⟩ := bind_eq_ok_iff.mp h
  obtain ⟨bytes, -, hencrypt⟩ := bind_eq_ok_iff.mp hread
  obtain ⟨message, -, hmade⟩ := bind_eq_ok_iff.mp hencrypt
  obtain ⟨fixed, -, hnew⟩ := Key.ofBytes_eq_ok_iff.mp hmade
  exact ⟨fixed, hnew⟩

/-- An unwrapped file key is new. -/
theorem exists_ofFixed_of_unwrapFileKey {wrapKey : CipherKey} {wrapped : EncryptedFileKey}
    {new : FileKey} (h : unwrapFileKey wrapKey wrapped = .ok new) :
    ∃ bytes, Key.ofFixed bytes = new := by
  obtain ⟨context, -, hread⟩ := bind_eq_ok_iff.mp h
  obtain ⟨bytes, -, hdecrypt⟩ := bind_eq_ok_iff.mp hread
  obtain ⟨plaintext, -, hmade⟩ := bind_eq_ok_iff.mp hdecrypt
  obtain ⟨fixed, -, hnew⟩ := Key.ofBytes_eq_ok_iff.mp hmade
  exact ⟨fixed, hnew⟩

/-! ## Every operation -/

/-- A key that another operation than `make` makes is kept as described. -/
theorem Step.keep_new {result : Except Error (Key kind)}
    (hmake : ∀ given, operation ≠ .make kind given)
    (h : ∀ new, result = .ok new → ∃ bytes, Key.ofFixed bytes = new) :
    Step ring operation (ring.keep result).1 (ring.keep result).2 := by
  refine Step.keep fun new hnew => ?_
  obtain ⟨bytes, hbytes⟩ := h new hnew
  exact ⟨bytes, hbytes, fun given hgiven => absurd hgiven (hmake given)⟩

/-- Every operation is as described. -/
theorem step_step (ring : Keyring) (operation : Operation) :
    Step ring operation (ring.step operation).1 (ring.step operation).2 := by
  cases operation with
  | make kind given =>
      refine Step.keep fun new hnew => ?_
      obtain ⟨bytes, hbytes, rfl⟩ := Key.ofBytes_eq_ok_iff.mp hnew
      refine ⟨bytes, rfl, fun other hother => ?_⟩
      obtain ⟨-, rfl⟩ := Operation.make.inj hother
      exact hbytes
  | destroy name => exact Step.withKey fun key hkey => .destroyed hkey
  | read | tag | verifyTag | expand | sealChunk | openChunk | verifyMac | encodeHeader
    | verifyHeader => exact Step.withKey fun key _ => Step.answer _
  | extract =>
      exact Step.withKey fun key _ =>
        Step.keep_new (by simp) fun _ => exists_ofFixed_of_extract
  | deriveKey =>
      exact Step.withKey fun key _ =>
        Step.keep_new (by simp) fun _ => exists_ofFixed_of_deriveKey
  | headerKey =>
      exact Step.withKey fun key _ =>
        Step.keep_new (by simp) fun _ => exists_ofFixed_of_headerKey
  | payloadKey =>
      exact Step.withKey fun key _ =>
        Step.keep_new (by simp) fun _ => exists_ofFixed_of_payloadKey
  | newContext => exact Step.withKey fun key _ => Step.keepContext _
  | encrypt | decrypt => exact Step.withContext _ _
  | wrapFileKey =>
      exact Step.withKey fun wrapKey _ => Step.withKey fun fileKey _ =>
        Step.keep_new (by simp) fun _ => exists_ofFixed_of_wrapFileKey
  | unwrapFileKey =>
      exact Step.withKey fun wrapKey _ => Step.withKey fun wrapped _ =>
        Step.keep_new (by simp) fun _ => exists_ofFixed_of_unwrapFileKey
  | appendMac context place buffer =>
      refine Step.withKey fun key _ => ?_
      rw [Header.appendMac]
      cases key.tag (ring.buffers buffer) with
      | error e =>
          dsimp only
          rw [Function.update_eq_self]
          exact .failed e
      | ok mac => exact .appended mac

/-- An operation that fails changes nothing. -/
theorem step_of_error {e : Error} (h : (ring.step operation).1 = some (.error e)) :
    (ring.step operation).2 = ring := by
  have hstep := step_step ring operation
  generalize (ring.step operation).2 = after at hstep ⊢
  rw [h] at hstep
  cases hstep with
  | failed => rfl

end AgeFile.Keyring
