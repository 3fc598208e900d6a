import AgeFile.Chunk.Stream
import AgeFile.Header.Authentication
import Mathlib.Logic.Function.Basic

/-!
# Keys in use

A program holds any number of keys of all kinds and uses them in any order. A `Keyring` is what it
holds, and `Operation` lists the ways to make, use and destroy a key; `step` carries one of them out
with the operation that it stands for, and `run` several in a row. `Operation.reads` says which keys
an operation reads, in this order.
-/

namespace AgeFile

/-- Where a key is found: its kind, and its place among the keys of this kind. -/
structure KeyName where
  kind : KeyKind
  place : Nat

/-- The keys of each kind in the order in which they were made, the cipher contexts made of them,
and the buffers that MACs are appended to. -/
structure Keyring where
  keys : (kind : KeyKind) → List (Key kind)
  contexts : List CipherContext
  buffers : Nat → Bytes

namespace Keyring

/-- An operation on keys, on a cipher context, or on a key and a buffer. -/
inductive Operation where
  /-- Make a key of a byte string. -/
  | make (kind : KeyKind) (bytes : Bytes)
  | destroy (name : KeyName)
  | read (name : KeyName)
  | tag (context : MacContext) (place : Nat) (data : Bytes)
  | verifyTag (context : MacContext) (place : Nat) (data tag : Bytes)
  | extract (context : MacContext) (place : Nat) (material : Bytes)
  | expand (context : MacContext) (place : Nat) (info : Bytes)
  | deriveKey (context : MacContext) (place : Nat) (material info : Bytes)
  | headerKey (place : Nat)
  | payloadKey (place : Nat) (nonce : FixedBytes Format.payloadNonceSize)
  /-- Make a cipher context of a cipher key. -/
  | newContext (place : Nat) (nonce : Nonce) (direction : Direction)
  /-- Encrypt with a cipher context, whatever became of its key. -/
  | encrypt (context : Nat) (plaintext : Bytes)
  /-- Decrypt with a cipher context, whatever became of its key. -/
  | decrypt (context : Nat) (message : Bytes)
  | sealChunk (place : Nat) (nonce : ChunkNonce) (plaintext : Bytes)
  | openChunk (place : Nat) (nonce : ChunkNonce) (sealed : Bytes)
  | wrapFileKey (wrapKey fileKey : Nat)
  | unwrapFileKey (wrapKey wrapped : Nat)
  | appendMac (context : MacContext) (place buffer : Nat)
  | verifyMac (context : MacContext) (place : Nat) (covered : Bytes) (mac : Mac)
  | encodeHeader (place : Nat) (stanzas : List Stanza)
  | verifyHeader (place : Nat) (header : Header)

/-- The keys that an operation reads, in the order in which it does. -/
def Operation.reads : Operation → List KeyName
  | make .. | destroy .. | encrypt .. | decrypt .. => []
  | read name => [name]
  | tag context place _ | verifyTag context place _ _ | extract context place _
  | expand context place _ | deriveKey context place _ _ | appendMac context place _
  | verifyMac context place _ _ => [⟨.mac context, place⟩]
  | headerKey place | payloadKey place _ | encodeHeader place _ | verifyHeader place _ =>
      [⟨.file, place⟩]
  | newContext place _ _ | sealChunk place _ _ | openChunk place _ _ => [⟨.cipher, place⟩]
  | wrapFileKey wrapKey fileKey => [⟨.cipher, wrapKey⟩, ⟨.file, fileKey⟩]
  | unwrapFileKey wrapKey wrapped => [⟨.cipher, wrapKey⟩, ⟨.encryptedFile, wrapped⟩]

/-- What an operation shows of its result. -/
inductive Value where
  | done
  | bytes (bytes : Bytes)
  | verdict (valid : Bool)
  | header (header : Header) (written : Bytes)

/-- The result of an operation that succeeds. -/
inductive Output where
  /-- A new key was made. -/
  | made (name : KeyName)
  /-- A new cipher context was made. -/
  | opened (context : Nat)
  | value (value : Value)

/-- The answer to an operation. There is none if it asks for a key or a context that is not
there. -/
abbrev Answer := Option (Except Error Output)

variable {kind : KeyKind}

/-- The key of a name. -/
def key? (ring : Keyring) (name : KeyName) : Option (Key name.kind) :=
  (ring.keys name.kind)[name.place]?

/-- The keyring with a new key behind those of its kind. -/
def add (ring : Keyring) (key : Key kind) : Keyring :=
  { ring with keys := Function.update ring.keys kind (ring.keys kind ++ [key]) }

/-- The keyring with another key in the place of the one of this name. -/
def put (ring : Keyring) (name : KeyName) (key : Key name.kind) : Keyring :=
  { ring with
    keys := Function.update ring.keys name.kind ((ring.keys name.kind).set name.place key) }

/-- Whether the key of this name is there and was destroyed. -/
def isDestroyed (ring : Keyring) (name : KeyName) : Bool :=
  (ring.key? name).any fun key => key.destroyed

/-- Do something with the key of a name, if it is there. -/
def withKey (ring : Keyring) (name : KeyName) (act : Key name.kind → Answer × Keyring) :
    Answer × Keyring :=
  match ring.key? name with
  | none => (none, ring)
  | some key => act key

/-- Answer without a change. -/
def answer (ring : Keyring) (result : Except Error Value) : Answer × Keyring :=
  (some (result.map .value), ring)

/-- Keep the key that was made, if one was. -/
def keep (ring : Keyring) : Except Error (Key kind) → Answer × Keyring
  | .error e => (some (.error e), ring)
  | .ok key => (some (.ok (.made ⟨kind, (ring.keys kind).length⟩)), ring.add key)

/-- Keep the cipher context that was made, if one was. -/
def keepContext (ring : Keyring) : Except Error CipherContext → Answer × Keyring
  | .error e => (some (.error e), ring)
  | .ok context =>
      (some (.ok (.opened ring.contexts.length)),
        { ring with contexts := ring.contexts ++ [context] })

/-- Use a cipher context, if it is there. -/
def withContext (ring : Keyring) (place : Nat) (act : CipherContext → Except Error Bytes) :
    Answer × Keyring :=
  match ring.contexts[place]? with
  | none => (none, ring)
  | some context => ring.answer ((act context).map .bytes)

/-- Carry out an operation: its answer, and what is held afterwards. -/
def step (ring : Keyring) : Operation → Answer × Keyring
  | .make kind bytes => ring.keep (Key.ofBytes kind bytes)
  | .destroy name =>
      ring.withKey name fun key => (some (.ok (.value .done)), ring.put name key.destroy)
  | .read name => ring.withKey name fun key => ring.answer (key.read.map fun b => .bytes b.bytes)
  | .tag context place data =>
      ring.withKey ⟨.mac context, place⟩ fun key =>
        ring.answer ((key.tag data).map fun tag => .bytes tag.bytes)
  | .verifyTag context place data tag =>
      ring.withKey ⟨.mac context, place⟩ fun key =>
        ring.answer ((key.verifyTag data tag).map .verdict)
  | .extract context place material =>
      ring.withKey ⟨.mac context, place⟩ fun key => ring.keep (key.extract material)
  | .expand context place info =>
      ring.withKey ⟨.mac context, place⟩ fun key =>
        ring.answer ((key.expand info).map fun block => .bytes block.bytes)
  | .deriveKey context place material info =>
      ring.withKey ⟨.mac context, place⟩ fun key =>
        ring.keep (AgeFile.deriveKey material key info)
  | .headerKey place => ring.withKey ⟨.file, place⟩ fun key => ring.keep (AgeFile.headerKey key)
  | .payloadKey place nonce =>
      ring.withKey ⟨.file, place⟩ fun key => ring.keep (AgeFile.payloadKey key nonce)
  | .newContext place nonce direction =>
      ring.withKey ⟨.cipher, place⟩ fun key =>
        ring.keepContext (CipherContext.create key nonce direction)
  | .encrypt context plaintext => ring.withContext context fun c => c.encrypt plaintext
  | .decrypt context message => ring.withContext context fun c => c.decrypt message
  | .sealChunk place nonce plaintext =>
      ring.withKey ⟨.cipher, place⟩ fun key =>
        ring.answer ((AgeFile.sealChunk key nonce plaintext).map .bytes)
  | .openChunk place nonce sealed =>
      ring.withKey ⟨.cipher, place⟩ fun key =>
        ring.answer ((AgeFile.openChunk key nonce sealed).map .bytes)
  | .wrapFileKey wrapKey fileKey =>
      ring.withKey ⟨.cipher, wrapKey⟩ fun wrapKey =>
        ring.withKey ⟨.file, fileKey⟩ fun fileKey => ring.keep (AgeFile.wrapFileKey wrapKey fileKey)
  | .unwrapFileKey wrapKey wrapped =>
      ring.withKey ⟨.cipher, wrapKey⟩ fun wrapKey =>
        ring.withKey ⟨.encryptedFile, wrapped⟩ fun wrapped =>
          ring.keep (AgeFile.unwrapFileKey wrapKey wrapped)
  | .appendMac context place buffer =>
      ring.withKey ⟨.mac context, place⟩ fun key =>
        let (result, bytes) := Header.appendMac key (ring.buffers buffer)
        (some (result.map fun mac => .value (.bytes mac.bytes)),
          { ring with buffers := Function.update ring.buffers buffer bytes })
  | .verifyMac context place covered mac =>
      ring.withKey ⟨.mac context, place⟩ fun key =>
        ring.answer ((Header.verifyMacOf key covered mac).map fun () => .done)
  | .encodeHeader place stanzas =>
      ring.withKey ⟨.file, place⟩ fun key =>
        ring.answer ((Header.encode stanzas key).map fun (header, bytes) => .header header bytes)
  | .verifyHeader place header =>
      ring.withKey ⟨.file, place⟩ fun key =>
        ring.answer ((header.verifyMac key).map fun () => .done)

/-- Carry out operations one after the other, whatever is answered: the answers, and what is held
afterwards. -/
def run (ring : Keyring) : List Operation → List Answer × Keyring
  | [] => ([], ring)
  | operation :: operations =>
      let (answer, after) := ring.step operation
      let (answers, last) := after.run operations
      (answer :: answers, last)

/-! ## Looking up keys -/

variable {ring : Keyring} {name : KeyName} {key : Key name.kind}

/-- The keys of a kind to which one was added. -/
theorem keys_add_self (ring : Keyring) (new : Key kind) :
    (ring.add new).keys kind = ring.keys kind ++ [new] :=
  Function.update_self kind _ ring.keys

/-- A new key changes nothing for other kinds. -/
theorem keys_add_of_ne {other : KeyKind} (hne : other ≠ kind) (ring : Keyring) (new : Key kind) :
    (ring.add new).keys other = ring.keys other :=
  Function.update_of_ne hne _ ring.keys

/-- The keys of a kind of which one was replaced. -/
theorem keys_put_self (ring : Keyring) (name : KeyName) (key : Key name.kind) :
    (ring.put name key).keys name.kind = (ring.keys name.kind).set name.place key :=
  Function.update_self name.kind _ ring.keys

/-- A key that is replaced changes nothing for other kinds. -/
theorem keys_put_of_ne {other : KeyKind} (hne : other ≠ name.kind) (ring : Keyring)
    (key : Key name.kind) : (ring.put name key).keys other = ring.keys other :=
  Function.update_of_ne hne _ ring.keys

/-- A key is found where it was put. -/
theorem key?_put_self (h : ring.key? name = some key) (other : Key name.kind) :
    (ring.put name other).key? name = some other := by
  obtain ⟨hplace, -⟩ := List.getElem?_eq_some_iff.mp h
  rw [key?, keys_put_self, List.getElem?_set_self hplace]

/-- A key that is put in a place does not show in another one. -/
theorem key?_put_of_ne {other : KeyName} (hne : other ≠ name) (key : Key name.kind) :
    (ring.put name key).key? other = ring.key? other := by
  by_cases hkind : other.kind = name.kind
  · obtain ⟨kind, place⟩ := name
    obtain ⟨otherKind, otherPlace⟩ := other
    obtain rfl : otherKind = kind := hkind
    have hplace : place ≠ otherPlace := by
      rintro rfl
      exact hne rfl
    rw [key?, key?, keys_put_self, List.getElem?_set_ne hplace]
  · rw [key?, key?, keys_put_of_ne hkind]

/-- What was put in a place first does not matter afterwards. -/
theorem put_put (first second : Key name.kind) :
    (ring.put name first).put name second = ring.put name second := by
  rw [put, keys_put_self, List.set_set, put, Function.update_idem]
  rfl

/-- Nothing can be put where there is no key. -/
theorem put_of_none (h : ring.key? name = none) (key : Key name.kind) :
    ring.put name key = ring := by
  have hplace := List.getElem?_eq_none_iff.mp h
  rw [put, List.set_eq_of_length_le hplace, Function.update_eq_self]

/-- A new key stands behind the others of its kind. -/
theorem key?_add_self (ring : Keyring) (new : Key kind) :
    (ring.add new).key? ⟨kind, (ring.keys kind).length⟩ = some new := by
  rw [key?, keys_add_self, List.getElem?_concat_length]

/-- A new key takes no other key's place. -/
theorem key?_add_of_some (h : ring.key? name = some key) (new : Key kind) :
    (ring.add new).key? name = some key := by
  by_cases hkind : name.kind = kind
  · subst hkind
    obtain ⟨hplace, -⟩ := List.getElem?_eq_some_iff.mp h
    rw [key?, keys_add_self, List.getElem?_append_left hplace]
    exact h
  · rw [key?, keys_add_of_ne hkind]
    exact h

end Keyring

end AgeFile
