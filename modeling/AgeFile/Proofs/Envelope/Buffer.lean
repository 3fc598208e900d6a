import AgeFile.Envelope

/-!
# Writing into a buffer

Writing the beginning of a file into a buffer draws and calls what writing it draws and calls, and
comes out in the same way. Read `BufferedHeader.fill` first: all that is added is a buffer that is
filled if the bytes fit, and left alone otherwise. `encryptHeaderInto_agrees` is the main statement.
-/

namespace AgeFile

/-- What writing into a buffer leaves behind, by what writing without one yields. -/
def BufferedHeader.fill (buffer : Bytes) :
    Except Error (Bytes × CipherKey) × RandomSource → BufferedHeader
  | (.error e, source) => ⟨.error e, buffer, source⟩
  | (.ok (bytes, key), source) =>
      if buffer.length < bytes.length then
        ⟨.error (.bufferTooSmall bytes.length buffer.length), buffer, source⟩
      else ⟨.ok (key, bytes.length), bytes ++ buffer.drop bytes.length, source⟩

/-- Writing into a buffer is writing, and then filling the buffer. -/
theorem encryptHeaderInto_eq {m : Type → Type} [Monad m] [LawfulMonad m]
    (writers : List (StanzaWriter m)) (buffer : Bytes) (source : RandomSource) :
    encryptHeaderInto writers buffer source =
      BufferedHeader.fill buffer <$> encryptHeader writers source := by
  rw [encryptHeaderInto, map_eq_pure_bind]
  refine bind_congr fun written => ?_
  obtain ⟨result, source⟩ := written
  cases result with
  | error e => rfl
  | ok sealed =>
      rw [BufferedHeader.fill]
      dsimp only
      split
      · rfl
      · rfl

namespace BufferedHeader

variable {buffer bytes : Bytes} {key : CipherKey} {source : RandomSource} {e : Error}
  {written : Except Error (Bytes × CipherKey) × RandomSource}

/-- Filling a buffer draws nothing. -/
theorem source_fill : (fill buffer written).source = written.2 := by
  obtain ⟨result, source⟩ := written
  cases result with
  | error e => rfl
  | ok sealed =>
      rw [fill]
      split
      · rfl
      · rfl

/-- A buffer in which the bytes do not fit stays as it is, and the error says how long both are. -/
theorem fill_of_lt (h : buffer.length < bytes.length) :
    fill buffer (.ok (bytes, key), source) =
      ⟨.error (.bufferTooSmall bytes.length buffer.length), buffer, source⟩ := by
  rw [fill, if_pos h]

/-- Bytes that fit, an exact fit included, are put at the front of the buffer. -/
theorem fill_of_le (h : bytes.length ≤ buffer.length) :
    fill buffer (.ok (bytes, key), source) =
      ⟨.ok (key, bytes.length), bytes ++ buffer.drop bytes.length, source⟩ := by
  rw [fill, if_neg (Nat.not_lt.mpr h)]

/-- After every error the buffer is as it was. -/
theorem buffer_fill_of_error (h : (fill buffer written).result = .error e) :
    (fill buffer written).buffer = buffer := by
  obtain ⟨result, source⟩ := written
  cases result with
  | error e => rfl
  | ok sealed =>
      rcases Nat.lt_or_ge buffer.length sealed.1.length with hshort | hfits
      · rw [fill_of_lt hshort]
      · rw [fill_of_le hfits] at h
        exact absurd h (by simp)

end BufferedHeader

/-- What lies behind bytes at the front of a buffer is what was there before. -/
theorem getElem?_front_drop {buffer bytes : Bytes} {index : Nat} (h : bytes.length ≤ index) :
    (bytes ++ buffer.drop bytes.length)[index]? = buffer[index]? := by
  rw [List.getElem?_append_right h, List.getElem?_drop, Nat.add_sub_of_le h]

variable {σ : Type}

/-- Writing the beginning of a file into a buffer agrees with writing it. The same bytes are drawn,
and the writers leave the world in the same state. An error is the same one. Bytes that fit are at
the front of the buffer afterwards, and every byte behind them is the one that was there; for bytes
that do not fit there is an error of its own. After every error the buffer is as it was. -/
theorem encryptHeaderInto_agrees (writers : List (StanzaWriter (StateM σ))) (buffer : Bytes)
    (source : RandomSource) (world : σ) :
    let written := (encryptHeader writers source).run world
    let filled := (encryptHeaderInto writers buffer source).run world
    filled.2 = written.2 ∧ filled.1.source = written.1.2 ∧
    (∀ e, written.1.1 = .error e → filled.1.result = .error e) ∧
    (∀ bytes key, written.1.1 = .ok (bytes, key) → bytes.length ≤ buffer.length →
      filled.1.result = .ok (key, bytes.length) ∧
      filled.1.buffer.length = buffer.length ∧
      filled.1.buffer.take bytes.length = bytes ∧
      ∀ index, bytes.length ≤ index → filled.1.buffer[index]? = buffer[index]?) ∧
    (∀ bytes key, written.1.1 = .ok (bytes, key) → buffer.length < bytes.length →
      filled.1.result = .error (.bufferTooSmall bytes.length buffer.length)) ∧
    ∀ e, filled.1.result = .error e → filled.1.buffer = buffer := by
  intro written filled
  have hfilled : filled = (BufferedHeader.fill buffer written.1, written.2) := by
    show (encryptHeaderInto writers buffer source).run world = _
    rw [encryptHeaderInto_eq, StateT.run_map]
    rfl
  rw [hfilled]
  obtain ⟨⟨result, after⟩, last⟩ := written
  refine ⟨rfl, BufferedHeader.source_fill, ?_, ?_, ?_, ?_⟩
  · rintro e rfl
    rfl
  · rintro bytes key rfl hfits
    rw [BufferedHeader.fill_of_le hfits]
    refine ⟨rfl, ?_, List.take_left, fun index => getElem?_front_drop⟩
    rw [List.length_append, List.length_drop, Nat.add_sub_of_le hfits]
  · rintro bytes key rfl hshort
    rw [BufferedHeader.fill_of_lt hshort]
  · intro e
    exact BufferedHeader.buffer_fill_of_error

end AgeFile
