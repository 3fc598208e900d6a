import AgeFile.Proofs.Chunk.Nonce
import AgeFile.Proofs.Cipher.Exactness

/-!
# The chunks of a payload and their nonces

Writer and reader each keep a nonce of their own, and go on with it in the same way. Read
`chunksFrom_eq_mapM` first: whatever is done with each chunk, it is done under the nonce that the
chunk's index and the number of chunks determine (`ChunkNonce.position`). So a reader that is given
as many chunks in the same order uses the nonces of the writer (`sealChunks_roundTrip`), and one
that is given fewer chunks, or chunks in another order, does not.
-/

namespace AgeFile

namespace ChunkNonce

/-- The nonce of a chunk of a payload, by the number of chunks and the index of this one. -/
def position (count index : Nat) : ChunkNonce :=
  ⟨⟨Bytes.bigEndian Format.chunkCounterSize index, Bytes.length_bigEndian _ _⟩,
    if index + 1 = count then 1 else 0⟩

/-- The nonce of a chunk by its index, as long as it is not marked as the last one. -/
def unmarked (index : Nat) : ChunkNonce :=
  ofCounter ⟨Bytes.bigEndian Format.chunkCounterSize index, Bytes.length_bigEndian _ _⟩

variable {count index other : Nat}

/-- A chunk that others follow is not marked. -/
theorem unmarked_eq_position (h : index + 1 ≠ count) : unmarked index = position count index := by
  rw [unmarked, ofCounter, position, if_neg h]

/-- The first nonce is that of the index zero. -/
theorem zero_eq_unmarked : zero = unmarked 0 := by
  decide

/-- The number of a chunk is its index. -/
theorem number_unmarked (h : index < Nat.pow 2 88) : (unmarked index).number = index :=
  Bytes.ofBigEndian_bigEndian h

/-- Marking a chunk as the last one leads to its position. -/
theorem markLast_unmarked (h : index + 1 = count) :
    (unmarked index).markLast = .ok (position count index) := by
  rw [position, if_pos h]
  rfl

/-- A nonce that is not marked is that of its number. -/
theorem eq_unmarked {nonce : ChunkNonce} (hflag : nonce.flag = 0) :
    nonce = unmarked nonce.number := by
  obtain ⟨counter, flag⟩ := nonce
  obtain rfl : flag = 0 := hflag
  have hcounter : counter = ⟨Bytes.bigEndian Format.chunkCounterSize
      (Bytes.ofBigEndian counter.bytes), Bytes.length_bigEndian _ _⟩ := by
    refine FixedBytes.ext ?_
    have hbytes := Bytes.bigEndian_ofBigEndian counter.bytes
    rw [counter.length_eq] at hbytes
    exact hbytes.symm
  exact congrArg ofCounter hcounter

/-- Going on from a chunk leads to the next index, as long as there is one. -/
theorem next_unmarked (h : index + 1 < Nat.pow 2 88) :
    (unmarked index).next = .ok (unmarked (index + 1)) := by
  have hnumber := number_unmarked (Nat.lt_of_succ_lt h)
  have hstep := step_call (unmarked index) .increment
  rw [next]
  show changed ((unmarked index).call .increment) = _
  generalize (unmarked index).call .increment = result at hstep ⊢
  obtain ⟨answer, after⟩ := result
  cases hstep with
  | counted _ hsame hafter =>
      rw [hnumber] at hafter
      rw [← hafter, ← eq_unmarked hsame]
      rfl
  | exhausted _ hlast =>
      rw [hnumber] at hlast
      exact absurd hlast (Nat.ne_of_lt h)
  | spent hflag =>
      have hunset : (0 : UInt8) ≠ 1 := by decide
      exact absurd hflag hunset

/-- Two chunks of payloads have the same nonce only if their indices are the same, and both or
neither of them is the last one. -/
theorem position_injective {otherCount : Nat} (hindex : index < Nat.pow 2 88)
    (hother : other < Nat.pow 2 88)
    (h : (position count index).toNonce = (position otherCount other).toNonce) :
    index = other ∧ (index + 1 = count ↔ other + 1 = otherCount) := by
  have hbytes := congrArg FixedBytes.bytes h
  obtain ⟨hcounter, hflag⟩ := List.append_inj' hbytes rfl
  refine ⟨?_, ?_⟩
  · have hnumber := congrArg Bytes.ofBigEndian hcounter
    rwa [show Bytes.ofBigEndian (position count index).counter.bytes = index from
      Bytes.ofBigEndian_bigEndian hindex, show Bytes.ofBigEndian
      (position otherCount other).counter.bytes = other from
      Bytes.ofBigEndian_bigEndian hother] at hnumber
  · have hsame : (position count index).flag = (position otherCount other).flag :=
      List.head_eq_of_cons_eq hflag
    simp only [position] at hsame
    by_cases hlast : index + 1 = count
    · by_cases hotherLast : other + 1 = otherCount
      · simp [hlast, hotherLast]
      · simp [hlast, hotherLast] at hsame
    · by_cases hotherLast : other + 1 = otherCount
      · simp [hlast, hotherLast] at hsame
      · simp [hlast, hotherLast]

/-- No two chunks of a payload have the same nonce. -/
theorem nodup_positions (h : count ≤ Nat.pow 2 88) :
    ((List.range count).map fun index => (position count index).toNonce).Nodup := by
  refine List.pairwise_map.mpr ?_
  refine List.nodup_range.imp_of_mem ?_
  intro index other hindex hother hne hsame
  have hindex' := List.mem_range.mp hindex
  have hother' := List.mem_range.mp hother
  exact hne (position_injective (by omega) (by omega) hsame).1

/-- Where the end of a payload was cut off, the chunk that became the last one had another nonce. -/
theorem position_ne_of_cut {total : Nat} (hpos : 0 < count) (hcut : count < total)
    (hlimit : total ≤ Nat.pow 2 88) :
    (position count (count - 1)).toNonce ≠ (position total (count - 1)).toNonce := by
  intro hsame
  have hlast := (position_injective (by omega) (by omega) hsame).2
  omega

/-- Where a chunk was moved, the chunk at its new place had another nonce. -/
theorem position_ne_of_moved {total : Nat} (hmoved : index ≠ other)
    (hindex : index < Nat.pow 2 88) (hother : other < Nat.pow 2 88) :
    (position count index).toNonce ≠ (position total other).toNonce := by
  intro hsame
  exact hmoved (position_injective hindex hother hsame).1

end ChunkNonce

open ChunkNonce (position unmarked)

variable {step : ChunkNonce → Bytes → Except Error Bytes} {chunks received : List Bytes}
  {index count : Nat}

/-! ## The driver -/

/-- A chunk that others follow is handled before the nonce goes on. -/
theorem chunksFrom_cons_cons (nonce : ChunkNonce) (chunk second : Bytes) (others : List Bytes) :
    chunksFrom step nonce (chunk :: second :: others) = (do
      let done ← step nonce chunk
      let next ← nonce.next
      return done :: (← chunksFrom step next (second :: others))) :=
  rfl

/-- From any chunk on, each chunk is handled under the nonce of its position. -/
theorem chunksFrom_unmarked (hcount : index + chunks.length = count)
    (hlimit : count ≤ Nat.pow 2 88) :
    chunksFrom step (unmarked index) chunks =
      (chunks.zipIdx index).mapM fun chunk => step (position count chunk.2) chunk.1 := by
  -- Induction on the chunks: the last one is marked, and another index follows every other one.
  induction chunks generalizing index with
  | nil => rfl
  | cons chunk chunks ih =>
      rw [List.zipIdx_cons, List.mapM_cons]
      cases chunks with
      | nil =>
          rw [chunksFrom, ChunkNonce.markLast_unmarked hcount, ok_bind]
          rfl
      | cons second chunks =>
          rw [List.length_cons, List.length_cons] at hcount
          have hnext : index + 1 < Nat.pow 2 88 := by omega
          have hrest : index + 1 + (second :: chunks).length = count := by
            rw [List.length_cons]
            omega
          rw [chunksFrom_cons_cons, ChunkNonce.next_unmarked hnext,
            ChunkNonce.unmarked_eq_position (by omega : index + 1 ≠ count)]
          simp only [ok_bind, ih hrest]

/-- Each chunk of a payload is handled under the nonce of its position. -/
theorem chunksFrom_eq_mapM (hlimit : chunks.length ≤ Nat.pow 2 88) :
    chunksFrom step ChunkNonce.zero chunks =
      chunks.zipIdx.mapM fun chunk => step (position chunks.length chunk.2) chunk.1 := by
  rw [ChunkNonce.zero_eq_unmarked]
  exact chunksFrom_unmarked (Nat.zero_add _) hlimit

/-- The chunks of a payload are handled successfully exactly when each of them is, under the nonce
of its position. -/
theorem chunksFrom_eq_ok_iff {results : List Bytes} (hlimit : chunks.length ≤ Nat.pow 2 88) :
    chunksFrom step ChunkNonce.zero chunks = .ok results ↔
      results.length = chunks.length ∧ ∀ (i : Nat) (chunk : Bytes), chunks[i]? = some chunk →
        ∃ result, results[i]? = some result ∧
          step (position chunks.length i) chunk = .ok result := by
  rw [chunksFrom_eq_mapM hlimit, mapM_eq_ok_iff_forall, List.length_zipIdx]
  simp only [List.getElem?_zipIdx, Option.map_eq_some_iff, Nat.zero_add]
  refine and_congr_right ?_
  intro _
  refine ⟨?_, ?_⟩
  · intro h i chunk hchunk
    exact h i (chunk, i) ⟨chunk, hchunk, rfl⟩
  · rintro h i - ⟨chunk, hchunk, rfl⟩
    exact h i chunk hchunk

/-! ## Sealing and opening -/

variable {key : CipherKey} {nonce : ChunkNonce} {chunk : Bytes}

/-- A chunk that is not too long is sealed under a key that was not destroyed. It becomes longer by
its tag, and it opens under the same key and nonce. -/
theorem exists_sealChunk (hlive : key.destroyed = false) (hsize : Aead.isTooLong chunk = false)
    (nonce : ChunkNonce) :
    ∃ message, sealChunk key nonce chunk = .ok message ∧
      message.length = chunk.length + Format.tagSize ∧
      openChunk key nonce message = .ok chunk := by
  have hexact := sealChunk_opensExactly hlive nonce
  obtain ⟨message, hsealed⟩ := (hexact.seals_iff chunk).mpr hsize
  exact ⟨message, hsealed, hexact.length_eq chunk message hsealed,
    (hexact.opens_iff chunk message).mpr hsealed⟩

/-- The chunks of a payload are sealed one by one, each under the nonce of its position. -/
theorem exists_sealChunks (hlive : key.destroyed = false) (hlimit : chunks.length ≤ Nat.pow 2 88)
    (hsize : ∀ chunk ∈ chunks, Aead.isTooLong chunk = false) :
    ∃ sealed, sealChunks key chunks = .ok sealed := by
  rw [sealChunks, chunksFrom_eq_mapM hlimit]
  refine exists_mapM_eq_ok ?_
  intro place hplace
  obtain ⟨message, hmessage, -⟩ := exists_sealChunk hlive
    (hsize place.1 (List.fst_mem_of_mem_zipIdx hplace)) (position chunks.length place.2)
  exact ⟨message, hmessage⟩

variable {sealed : List Bytes}

/-- Each chunk of a payload that was sealed is sealed under the nonce of its position, and opens
under it. -/
theorem exists_message_of_sealChunks (hlive : key.destroyed = false)
    (hlimit : chunks.length ≤ Nat.pow 2 88)
    (hsize : ∀ chunk ∈ chunks, Aead.isTooLong chunk = false)
    (hsealed : sealChunks key chunks = .ok sealed) {i : Nat} (hchunk : chunks[i]? = some chunk) :
    ∃ message, sealed[i]? = some message ∧
      sealChunk key (position chunks.length i) chunk = .ok message ∧
      message.length = chunk.length + Format.tagSize ∧
      openChunk key (position chunks.length i) message = .ok chunk := by
  obtain ⟨-, hsteps⟩ := (chunksFrom_eq_ok_iff hlimit).mp hsealed
  obtain ⟨message, hget, hseal⟩ := hsteps i chunk hchunk
  obtain ⟨other, hother, hlonger, hopen⟩ := exists_sealChunk hlive
    (hsize chunk (List.mem_of_getElem? hchunk)) (position chunks.length i)
  obtain rfl := Except.ok.inj (hseal.symm.trans hother)
  exact ⟨message, hget, hseal, hlonger, hopen⟩

/-- A payload that was sealed opens as the same chunks: the reader is given as many chunks as the
writer was, so its nonces are the same. -/
theorem openChunks_of_sealChunks (hlive : key.destroyed = false)
    (hlimit : chunks.length ≤ Nat.pow 2 88)
    (hsize : ∀ chunk ∈ chunks, Aead.isTooLong chunk = false)
    (hsealed : sealChunks key chunks = .ok sealed) : openChunks key sealed = .ok chunks := by
  obtain ⟨hlength, -⟩ := (chunksFrom_eq_ok_iff hlimit).mp hsealed
  refine (chunksFrom_eq_ok_iff (by omega)).mpr ⟨hlength.symm, ?_⟩
  intro i message hget
  have hi : i < chunks.length := hlength ▸ (List.getElem?_eq_some_iff.mp hget).1
  have hchunk : chunks[i]? = some chunks[i] := List.getElem?_eq_getElem hi
  obtain ⟨other, hother, -, -, hopen⟩ :=
    exists_message_of_sealChunks hlive hlimit hsize hsealed hchunk
  obtain rfl := Option.some.inj (hget.symm.trans hother)
  rw [hlength]
  exact ⟨chunks[i], hchunk, hopen⟩

/-- A payload of up to 2^88 chunks is sealed under a key that was not destroyed, and it opens as the
same chunks. The chunk with the index `i` is sealed under the eleven bytes of `i` and a byte that is
one for the last chunk, so no nonce is used twice. A reader opens whatever it is given under the
nonces of its own count: where the end was cut off, the chunk that became the last one has another
nonce than it was sealed under, and where chunks were put in another order, so has each that was
moved. -/
theorem sealChunks_roundTrip (hlive : key.destroyed = false)
    (hlimit : chunks.length ≤ Nat.pow 2 88)
    (hsize : ∀ chunk ∈ chunks, Aead.isTooLong chunk = false) :
    ∃ sealed, sealChunks key chunks = .ok sealed ∧ openChunks key sealed = .ok chunks ∧
      sealed.length = chunks.length ∧
      (∀ (i : Nat) (chunk : Bytes), chunks[i]? = some chunk → ∃ message,
        sealed[i]? = some message ∧ message.length = chunk.length + 16 ∧
        sealChunk key (position chunks.length i) chunk = .ok message) ∧
      (∀ i, (position chunks.length i).toNonce.bytes =
        Bytes.bigEndian 11 i ++ [if i + 1 = chunks.length then 1 else 0]) ∧
      ((List.range chunks.length).map fun i => (position chunks.length i).toNonce).Nodup ∧
      (∀ received : List Bytes, received.length ≤ Nat.pow 2 88 →
        openChunks key received = received.zipIdx.mapM fun message =>
          openChunk key (position received.length message.2) message.1) ∧
      (∀ count, 0 < count → count < chunks.length →
        (position (sealed.take count).length (count - 1)).toNonce ≠
          (position chunks.length (count - 1)).toNonce) ∧
      (∀ order : List Nat, order.Perm (List.range chunks.length) → ∀ i j : Nat,
        order[j]? = some i → i ≠ j →
        (position (order.map fun i => sealed.getD i []).length j).toNonce ≠
          (position chunks.length i).toNonce) := by
  obtain ⟨sealed, hsealed⟩ := exists_sealChunks hlive hlimit hsize
  obtain ⟨hlength, -⟩ := (chunksFrom_eq_ok_iff hlimit).mp hsealed
  refine ⟨sealed, hsealed, openChunks_of_sealChunks hlive hlimit hsize hsealed, hlength, ?_,
    fun _ => rfl, ChunkNonce.nodup_positions hlimit, fun _ => chunksFrom_eq_mapM, ?_, ?_⟩
  · intro i chunk hchunk
    obtain ⟨message, hget, hseal, hlonger, -⟩ :=
      exists_message_of_sealChunks hlive hlimit hsize hsealed hchunk
    exact ⟨message, hget, hlonger, hseal⟩
  · intro count hpos hcut
    rw [List.length_take_of_le (by omega : count ≤ sealed.length)]
    exact ChunkNonce.position_ne_of_cut hpos hcut hlimit
  · intro order horder i j hplace hmoved
    have hi : i < chunks.length :=
      List.mem_range.mp (horder.mem_iff.mp (List.mem_of_getElem? hplace))
    have hj : j < order.length := (List.getElem?_eq_some_iff.mp hplace).1
    rw [horder.length_eq, List.length_range] at hj
    exact ChunkNonce.position_ne_of_moved hmoved.symm (by omega) (by omega)

/-- A key of the authenticated cipher whose bytes are all zero. -/
def zeroCipherKey : CipherKey :=
  Key.ofFixed (FixedBytes.zero _)

/-- A payload of three chunks, one of them empty, is sealed and opens again. -/
theorem sealChunks_roundTrip_three :
    zeroCipherKey.destroyed = false ∧ [[0x61], [], [0x62, 0x63]].length ≤ Nat.pow 2 88 ∧
      (∀ chunk ∈ [[0x61], [], [0x62, 0x63]], Aead.isTooLong chunk = false) ∧
      ∃ sealed, sealChunks zeroCipherKey [[0x61], [], [0x62, 0x63]] = .ok sealed ∧
        openChunks zeroCipherKey sealed = .ok [[0x61], [], [0x62, 0x63]] := by
  have hlive : zeroCipherKey.destroyed = false := rfl
  have hlimit : [[0x61], [], [0x62, 0x63]].length ≤ Nat.pow 2 88 := by decide
  have hsize : ∀ chunk ∈ [[0x61], [], [0x62, 0x63]], Aead.isTooLong chunk = false := by decide
  obtain ⟨sealed, hseal, hopen, -⟩ := sealChunks_roundTrip hlive hlimit hsize
  exact ⟨hlive, hlimit, hsize, sealed, hseal, hopen⟩

end AgeFile
