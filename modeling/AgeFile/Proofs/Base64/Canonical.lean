import AgeFile.Base64
import AgeFile.Proofs.Except

/-!
# Base64 is canonical

Reading and writing base64 are inverse to each other. Read `decode_eq_ok_iff` first: a text is read
as a byte string exactly when it is the encoding of that byte string, so a byte string has one
spelling and a text with padding, a wrong length or stray bits has no reading. `exists_encode_iff`
says which texts are encodings by their symbols alone.

The symbols come first, then one group of two to four of them, then the groups before the last.
-/

namespace AgeFile.Base64

/-! ## Symbols -/

/-- A symbol stands for the number it was chosen for. -/
theorem value?_symbol {value : Nat} (h : value < 64) : value? (symbol value) = some value := by
  revert value
  decide

/-- A byte that stands for a number is the symbol of that number. -/
theorem symbol_of_value? {byte : UInt8} {value : Nat} (h : value? byte = some value) :
    value < 64 ∧ symbol value = byte := by
  have hbyte : UInt8.ofNat byte.toNat = byte := UInt8.ofNat_toNat
  -- One case for each range of the alphabet: capitals, small letters, digits, two signs.
  unfold value? at h
  split at h
  · obtain rfl := Option.some.inj h
    refine ⟨by omega, ?_⟩
    rw [symbol, if_pos (by omega), show byte.toNat - 65 + 65 = byte.toNat by omega, hbyte]
  · split at h
    · obtain rfl := Option.some.inj h
      refine ⟨by omega, ?_⟩
      rw [symbol, if_neg (by omega), if_pos (by omega),
        show byte.toNat - 71 + 71 = byte.toNat by omega, hbyte]
    · split at h
      · obtain rfl := Option.some.inj h
        refine ⟨by omega, ?_⟩
        rw [symbol, if_neg (by omega), if_neg (by omega), if_pos (by omega),
          show byte.toNat + 4 - 4 = byte.toNat by omega, hbyte]
      · split at h
        · rename_i hplus
          obtain rfl := Option.some.inj h
          exact ⟨by omega, hplus.symm⟩
        · split at h
          · rename_i hslash
            obtain rfl := Option.some.inj h
            exact ⟨by omega, hslash.symm⟩
          · exact absurd h (by simp)

/-- The symbols are the bytes that stand for a number below 64. -/
theorem value?_eq_some_iff {byte : UInt8} {value : Nat} :
    value? byte = some value ↔ value < 64 ∧ byte = symbol value := by
  refine ⟨?_, ?_⟩
  · intro h
    obtain ⟨hlt, hsymbol⟩ := symbol_of_value? h
    exact ⟨hlt, hsymbol.symm⟩
  · intro h
    obtain ⟨hlt, rfl⟩ := h
    exact value?_symbol hlt

/-- A byte that stands for no number is not a symbol. -/
theorem ne_symbol_of_value? {byte : UInt8} (hbyte : value? byte = none) {value : Nat}
    (h : value < 64) : byte ≠ symbol value := by
  intro hsymbol
  have hvalue := value?_symbol h
  rw [← hsymbol, hbyte] at hvalue
  exact absurd hvalue (by simp)

/-- `Spells text values` says that a text is the symbols of these numbers below 64. -/
def Spells (text : Bytes) (values : List Nat) : Prop :=
  text = values.map symbol ∧ ∀ value ∈ values, value < 64

/-- No text, no numbers. -/
theorem spells_nil : Spells [] [] :=
  ⟨rfl, by simp⟩

/-- The first byte of a text spells the first number, and the others spell the rest. -/
theorem spells_cons_iff {byte : UInt8} {text : Bytes} {values : List Nat} :
    Spells (byte :: text) values ↔
      ∃ value rest, values = value :: rest ∧ value? byte = some value ∧ Spells text rest := by
  refine ⟨?_, ?_⟩
  · intro h
    obtain ⟨htext, hlt⟩ := h
    cases values with
    | nil => exact absurd htext (by simp)
    | cons value rest =>
        simp only [List.map_cons, List.cons.injEq, List.forall_mem_cons] at htext hlt
        exact ⟨value, rest, rfl, value?_eq_some_iff.mpr ⟨hlt.1, htext.1⟩, htext.2, hlt.2⟩
  · intro h
    obtain ⟨value, rest, rfl, hvalue, htext, hlt⟩ := h
    obtain ⟨hvalue, hbyte⟩ := value?_eq_some_iff.mp hvalue
    exact ⟨by rw [List.map_cons, ← hbyte, ← htext], List.forall_mem_cons.mpr ⟨hvalue, hlt⟩⟩

/-- A text has as many symbols as it spells numbers. -/
theorem Spells.length_eq {text : Bytes} {values : List Nat} (h : Spells text values) :
    text.length = values.length := by
  rw [h.1, List.length_map]

/-- A text spells what its bytes stand for, if each of them stands for a number. -/
theorem spells_iff_filterMap {text : Bytes} {values : List Nat} :
    Spells text values ↔
      (∀ b ∈ text, (value? b).isNone = false) ∧ text.filterMap value? = values := by
  induction text generalizing values with
  | nil =>
      refine ⟨?_, ?_⟩
      · intro h
        have hnil : values = [] := List.length_eq_zero_iff.mp h.length_eq.symm
        exact ⟨by simp, hnil.symm⟩
      · intro h
        obtain ⟨-, rfl⟩ := h
        exact spells_nil
  | cons byte text ih =>
      rw [spells_cons_iff, List.forall_mem_cons]
      refine ⟨?_, ?_⟩
      · intro h
        obtain ⟨value, rest, rfl, hvalue, hrest⟩ := h
        obtain ⟨hall, hmap⟩ := ih.mp hrest
        exact ⟨⟨by rw [hvalue]; rfl, hall⟩, by rw [List.filterMap_cons_some hvalue, hmap]⟩
      · intro h
        obtain ⟨⟨hbyte, hall⟩, hmap⟩ := h
        obtain ⟨value, hvalue⟩ := Option.isSome_iff_exists.mp (Option.isNone_eq_false_iff.mp hbyte)
        rw [List.filterMap_cons_some hvalue] at hmap
        exact ⟨value, _, hmap.symm, hvalue, ih.mpr ⟨hall, rfl⟩⟩

/-- A text in two parts spells the numbers of both. -/
theorem spells_append_iff {first second : Bytes} {values : List Nat} :
    Spells (first ++ second) values ↔
      ∃ front back, values = front ++ back ∧ Spells first front ∧ Spells second back := by
  refine ⟨?_, ?_⟩
  · intro h
    obtain ⟨htext, hlt⟩ := h
    obtain ⟨front, back, rfl, rfl, rfl⟩ := List.append_eq_map_iff.mp htext
    obtain ⟨hfront, hback⟩ := List.forall_mem_append.mp hlt
    exact ⟨front, back, rfl, ⟨rfl, hfront⟩, rfl, hback⟩
  · intro h
    obtain ⟨front, back, rfl, ⟨rfl, hfront⟩, rfl, hback⟩ := h
    exact ⟨List.map_append.symm, List.forall_mem_append.mpr ⟨hfront, hback⟩⟩

/-- A stretch is read exactly when all of it is symbols. -/
theorem readFull_eq_ok_iff {offset : Nat} {stretch : Bytes} {values : List Nat} :
    readFull offset stretch = .ok values ↔ Spells stretch values := by
  rw [spells_iff_filterMap]
  unfold readFull
  split
  · rename_i i hbad
    obtain ⟨hi, hnone, -⟩ := List.findIdx?_eq_some_iff_getElem.mp hbad
    simp only [reduceCtorEq, false_iff, not_and]
    intro hall
    exact absurd (hnone.symm.trans (hall _ (List.getElem_mem hi))) (by simp)
  · rename_i hgood
    rw [Except.ok.injEq, and_iff_right (List.findIdx?_eq_none_iff.mp hgood)]

/-! ## The last group -/

/-- Padding that was met is not forgotten. -/
theorem readLast_padded {offset index first : Nat} {group : Bytes} {values : List Nat}
    {padding : Option Nat} (h : readLast offset index (some first) group = .ok (values, padding)) :
    padding = some first := by
  induction group generalizing index with
  | nil =>
      simp only [readLast, Except.ok.injEq, Prod.mk.injEq] at h
      exact h.2.symm
  | cons byte group ih =>
      unfold readLast at h
      split at h
      · split at h
        · exact absurd h (by simp)
        · exact ih h
      · exact absurd h (by simp)

/-- A last group is read without padding exactly when all of it is symbols. -/
theorem readLast_eq_ok_iff {offset index : Nat} {group : Bytes} {values : List Nat} :
    readLast offset index none group = .ok (values, none) ↔ Spells group values := by
  induction group generalizing index values with
  | nil =>
      rw [spells_iff_filterMap]
      simp [readLast]
  | cons byte group ih =>
      rw [spells_cons_iff]
      unfold readLast
      by_cases hpad : byte = pad
      · -- Padding is not a symbol, and its index comes out again, so neither side holds.
        rw [if_pos hpad]
        refine ⟨?_, ?_⟩
        · intro h
          split at h
          · exact absurd h (by simp)
          · exact absurd (readLast_padded h) (by simp)
        · intro h
          obtain ⟨value, rest, -, hvalue, -⟩ := h
          obtain ⟨hlt, hbyte⟩ := value?_eq_some_iff.mp hvalue
          exact absurd (hpad.symm.trans hbyte) (ne_symbol_of_value? (by decide) hlt)
      · rw [if_neg hpad]
        cases hvalue : value? byte with
        | none => simp
        | some first =>
            refine ⟨?_, ?_⟩
            · intro h
              obtain ⟨⟨others, padding⟩, hrest, h⟩ := bind_eq_ok_iff.mp h
              simp only [pure_eq_ok, Except.ok.injEq, Prod.mk.injEq] at h
              obtain ⟨rfl, rfl⟩ := h
              exact ⟨first, others, rfl, rfl, ih.mp hrest⟩
            · intro h
              obtain ⟨value, rest, rfl, hfirst, hrest⟩ := h
              obtain rfl := Option.some.inj hfirst
              simp [ih.mpr hrest]

/-- The numbers of one to three bytes are below 64. -/
theorem sextets_lt (bytes : Bytes) : ∀ value ∈ sextets bytes, value < 64 := by
  have hbyte : ∀ b : UInt8, b.toNat < 256 := fun b => b.toNat_lt
  match bytes with
  | [] | _ :: _ :: _ :: _ :: _ => simp [sextets]
  | [a] =>
      have ha := hbyte a
      simp only [sextets, List.forall_mem_cons]
      exact ⟨by omega, by omega, by simp⟩
  | [a, b] =>
      have ha := hbyte a
      have hb := hbyte b
      simp only [sextets, List.forall_mem_cons]
      exact ⟨by omega, by omega, by omega, by simp⟩
  | [a, b, c] =>
      have ha := hbyte a
      have hb := hbyte b
      have hc := hbyte c
      simp only [sextets, List.forall_mem_cons]
      exact ⟨by omega, by omega, by omega, by omega, by simp⟩

/-- The bytes that the numbers of one to three bytes spell are these bytes. -/
theorem octets_sextets (bytes : Bytes) (hpos : 0 < bytes.length) (hle : bytes.length ≤ 3) :
    octets (sextets bytes) = bytes := by
  have hbyte : ∀ b : UInt8, b.toNat < 256 := fun b => b.toNat_lt
  match bytes with
  | [] => simp at hpos
  | [a] =>
      have ha := hbyte a
      rw [sextets, octets, show a.toNat / 4 * 4 + a.toNat % 4 * 16 / 16 = a.toNat by omega,
        UInt8.ofNat_toNat]
  | [a, b] =>
      have ha := hbyte a
      have hb := hbyte b
      rw [sextets, octets,
        show a.toNat / 4 * 4 + (a.toNat % 4 * 16 + b.toNat / 16) / 16 = a.toNat by omega,
        show (a.toNat % 4 * 16 + b.toNat / 16) % 16 * 16 + b.toNat % 16 * 4 / 4 = b.toNat by omega,
        UInt8.ofNat_toNat, UInt8.ofNat_toNat]
  | [a, b, c] =>
      have ha := hbyte a
      have hb := hbyte b
      have hc := hbyte c
      rw [sextets, octets,
        show a.toNat / 4 * 4 + (a.toNat % 4 * 16 + b.toNat / 16) / 16 = a.toNat by omega,
        show (a.toNat % 4 * 16 + b.toNat / 16) % 16 * 16 +
          (b.toNat % 16 * 4 + c.toNat / 64) / 4 = b.toNat by omega,
        show (b.toNat % 16 * 4 + c.toNat / 64) % 4 * 64 + c.toNat % 64 = c.toNat by omega,
        UInt8.ofNat_toNat, UInt8.ofNat_toNat, UInt8.ofNat_toNat]
  | _ :: _ :: _ :: _ :: _ => simp only [List.length_cons] at hle; omega

/-- The unused bits of one to three bytes are zero. -/
theorem getLastD_sextets_mod (bytes : Bytes) :
    (sextets bytes).getLastD 0 % unusedRange (sextets bytes).length = 0 := by
  match bytes with
  | [] | _ :: _ :: _ :: _ :: _ => rfl
  | [a] =>
      show a.toNat % 4 * 16 % 16 = 0
      omega
  | [a, b] =>
      show b.toNat % 16 * 4 % 4 = 0
      omega
  | [a, b, c] =>
      show c.toNat % 64 % 1 = 0
      omega

/-- Two to four numbers below 64 spell one byte less than they are. -/
theorem length_octets (values : List Nat) (hge : 2 ≤ values.length) (hle : values.length ≤ 4) :
    (octets values).length + 1 = values.length := by
  match values with
  | [] | [_] => simp at hge
  | [_, _] | [_, _, _] | [_, _, _, _] => rfl
  | _ :: _ :: _ :: _ :: _ :: _ => simp only [List.length_cons] at hle; omega

/-- Two to four numbers whose unused bits are zero are the numbers of the bytes they spell. -/
theorem sextets_octets (values : List Nat) (hlt : ∀ value ∈ values, value < 64)
    (hge : 2 ≤ values.length) (hle : values.length ≤ 4)
    (hunused : values.getLastD 0 % unusedRange values.length = 0) :
    sextets (octets values) = values := by
  have hbyte : ∀ n, n < 256 → (UInt8.ofNat n).toNat = n := fun n hn => by simp [hn]
  match values with
  | [] | [_] => simp at hge
  | [p, q] =>
      simp only [List.forall_mem_cons] at hlt
      have hq : q % 16 = 0 := hunused
      rw [octets, sextets, hbyte _ (by omega), show (p * 4 + q / 16) / 4 = p by omega,
        show (p * 4 + q / 16) % 4 * 16 = q by omega]
  | [p, q, r] =>
      simp only [List.forall_mem_cons] at hlt
      have hr : r % 4 = 0 := hunused
      rw [octets, sextets, hbyte _ (by omega), hbyte _ (by omega),
        show (p * 4 + q / 16) / 4 = p by omega,
        show (p * 4 + q / 16) % 4 * 16 + (q % 16 * 16 + r / 4) / 16 = q by omega,
        show (q % 16 * 16 + r / 4) % 16 * 4 = r by omega]
  | [p, q, r, s] =>
      simp only [List.forall_mem_cons] at hlt
      rw [octets, sextets, hbyte _ (by omega), hbyte _ (by omega), hbyte _ (by omega),
        show (p * 4 + q / 16) / 4 = p by omega,
        show (p * 4 + q / 16) % 4 * 16 + (q % 16 * 16 + r / 4) / 16 = q by omega,
        show (q % 16 * 16 + r / 4) % 16 * 4 + (r % 4 * 64 + s) / 64 = r by omega,
        show (r % 4 * 64 + s) % 64 = s by omega]
  | _ :: _ :: _ :: _ :: _ :: _ => simp only [List.length_cons] at hle; omega

/-- A last group is read as the one to three bytes that it is the encoding of. -/
theorem readGroup_eq_ok_iff {offset : Nat} {group bytes : Bytes} (hlength : group.length ≤ 4) :
    readGroup offset group = .ok bytes ↔
      Spells group (sextets bytes) ∧ 0 < bytes.length ∧ bytes.length ≤ 3 := by
  refine ⟨?_, ?_⟩
  · intro h
    obtain ⟨⟨values, padding⟩, hlast, h⟩ := bind_eq_ok_iff.mp h
    simp only at h
    split at h
    · exact absurd h (by simp)
    rename_i hmany
    split at h
    · exact absurd h (by simp)
    rename_i hpadding
    split at h
    · exact absurd h (by simp)
    rename_i hunused
    obtain rfl : padding = none := Option.not_isSome_iff_eq_none.mp hpadding
    obtain rfl := Except.ok.inj h
    have hspells : Spells group values := readLast_eq_ok_iff.mp hlast
    have hcount : values.length ≤ 4 := hspells.length_eq ▸ hlength
    have hoctets := length_octets values (by omega) hcount
    rw [sextets_octets values hspells.2 (by omega) hcount (by omega)]
    exact ⟨hspells, by omega, by omega⟩
  · intro h
    obtain ⟨hspells, hpos, hle⟩ := h
    have hcount := length_sextets bytes hpos hle
    have hunused := getLastD_sextets_mod bytes
    rw [readGroup, readLast_eq_ok_iff.mpr hspells, ok_bind]
    simp only
    rw [if_neg (by omega), if_neg (by simp), if_neg (by omega), octets_sextets bytes hpos hle]

/-! ## Whole texts -/

/-- One to three bytes are written as one group. -/
theorem encode_group (bytes : Bytes) (hpos : 0 < bytes.length) (hle : bytes.length ≤ 3) :
    encode bytes = (sextets bytes).map symbol := by
  have hnil : bytes ≠ [] := List.length_pos_iff.mp hpos
  rw [encode, pieces_of_ne_nil 3 (by omega) _ hnil, List.take_of_length_le hle,
    List.drop_of_length_le hle]
  simp

/-- Bytes cut at a whole number of groups are written part by part. -/
theorem encode_append (first second : Bytes) (hfirst : first.length % 3 = 0) :
    encode (first ++ second) = encode first ++ encode second := by
  rw [encode, encode, encode, pieces_append 3 (by omega) _ _ hfirst, List.flatMap_append,
    List.map_append]

/-- The numbers of whole groups of bytes spell these bytes again. -/
theorem octets_of_encode (bytes : Bytes) (hwhole : bytes.length % 3 = 0) :
    ∃ values, Spells (encode bytes) values ∧ (pieces 4 values).flatMap octets = bytes := by
  induction hlen : bytes.length using Nat.strongRecOn generalizing bytes with
  | ind n ih =>
      by_cases hnil : bytes = []
      · subst hnil
        exact ⟨[], spells_nil, rfl⟩
      · have hpos : 0 < bytes.length := List.length_pos_iff.mpr hnil
        have htake : (bytes.take 3).length = 3 := by rw [List.length_take]; omega
        have hdrop : (bytes.drop 3).length = bytes.length - 3 := List.length_drop
        have hcount := length_sextets (bytes.take 3) (by omega) (by omega)
        obtain ⟨values, ⟨htext, hlt⟩, hvalues⟩ :=
          ih (bytes.drop 3).length (by omega) (bytes.drop 3) (by omega) rfl
        refine ⟨sextets (bytes.take 3) ++ values, ⟨?_, ?_⟩, ?_⟩
        · rw [List.map_append, ← htext, ← encode_group _ (by omega) (by omega),
            ← encode_append _ _ (by omega), List.take_append_drop]
        · intro value hvalue
          rcases List.mem_append.mp hvalue with hvalue | hvalue
          · exact sextets_lt _ value hvalue
          · exact hlt value hvalue
        · rw [pieces_append 4 (by omega) _ _ (by omega),
            pieces_of_ne_nil 4 (by omega) _ (by intro h; rw [h] at hcount; simp at hcount),
            List.take_of_length_le (by omega), List.drop_of_length_le (by omega), pieces_nil,
            List.singleton_append, List.flatMap_cons, hvalues,
            octets_sextets _ (by omega) (by omega), List.take_append_drop]

/-- Whole groups of numbers below 64 spell bytes whose encoding is the numbers' symbols. -/
theorem encode_octets (values : List Nat) (hlt : ∀ value ∈ values, value < 64)
    (hwhole : values.length % 4 = 0) :
    encode ((pieces 4 values).flatMap octets) = values.map symbol ∧
      ((pieces 4 values).flatMap octets).length % 3 = 0 := by
  induction hlen : values.length using Nat.strongRecOn generalizing values with
  | ind n ih =>
      by_cases hnil : values = []
      · subst hnil
        exact ⟨rfl, rfl⟩
      · have hpos : 0 < values.length := List.length_pos_iff.mpr hnil
        have htake : (values.take 4).length = 4 := by rw [List.length_take]; omega
        have hdrop : (values.drop 4).length = values.length - 4 := List.length_drop
        have hcount := length_octets (values.take 4) (by omega) (by omega)
        have hgroup : sextets (octets (values.take 4)) = values.take 4 := by
          refine sextets_octets _ (fun v hv => hlt v (List.mem_of_mem_take hv)) (by omega)
            (by omega) ?_
          rw [htake]
          exact Nat.mod_one _
        obtain ⟨htext, hrest⟩ := ih (values.drop 4).length (by omega) (values.drop 4)
          (fun v hv => hlt v (List.mem_of_mem_drop hv)) (by omega) rfl
        rw [pieces_of_ne_nil 4 (by omega) _ hnil, List.flatMap_cons]
        refine ⟨?_, ?_⟩
        · rw [encode_append _ _ (by omega), encode_group _ (by omega) (by omega), hgroup, htext,
            ← List.map_append, List.take_append_drop]
        · rw [List.length_append]
          omega

/-- What is not empty ends with one group of at most a given size, and whole groups stand before
it. -/
theorem exists_last_group {bytes : Bytes} (size : Nat) (hsize : 0 < size) (hnil : bytes ≠ []) :
    ∃ whole last, bytes = whole ++ last ∧ whole.length % size = 0 ∧ 0 < last.length ∧
      last.length ≤ size := by
  have hpos : 0 < bytes.length := List.length_pos_iff.mpr hnil
  have hsplit := Nat.div_add_mod' (bytes.length - 1) size
  have hrest := Nat.mod_lt (bytes.length - 1) hsize
  refine ⟨bytes.take ((bytes.length - 1) / size * size),
    bytes.drop ((bytes.length - 1) / size * size), (List.take_append_drop _ _).symm, ?_, ?_, ?_⟩
  · rw [List.length_take_of_le (by omega)]
    exact Nat.mul_mod_left _ _
  · rw [List.length_drop]
    omega
  · rw [List.length_drop]
    omega

/-- A text is read by its whole groups and its last group. -/
theorem decode_append_eq_ok_iff {whole last bytes : Bytes} (hwhole : whole.length % 4 = 0)
    (hpos : 0 < last.length) (hle : last.length ≤ 4) :
    decode (whole ++ last) = .ok bytes ↔ ∃ values group, Spells whole values ∧
      Spells last (sextets group) ∧ 0 < group.length ∧ group.length ≤ 3 ∧
      bytes = (pieces 4 values).flatMap octets ++ group := by
  have hlength : (whole ++ last).length = whole.length + last.length := List.length_append
  have hoffset : ((whole ++ last).length - 1) / 4 * 4 = whole.length := by omega
  unfold decode
  split
  · rename_i hnone
    rw [List.getLast?_eq_none_iff.mp hnone, List.length_nil] at hlength
    omega
  · refine ⟨?_, ?_⟩
    · intro h
      split at h
      · exact absurd h (by simp)
      · simp only [hoffset, List.take_left, List.drop_left] at h
        obtain ⟨values, hfull, h⟩ := bind_eq_ok_iff.mp h
        obtain ⟨group, hgroup, h⟩ := bind_eq_ok_iff.mp h
        obtain ⟨hspells, hgroupPos, hgroupLe⟩ := (readGroup_eq_ok_iff hle).mp hgroup
        exact ⟨values, group, readFull_eq_ok_iff.mp hfull, hspells, hgroupPos, hgroupLe,
          (Except.ok.inj h).symm⟩
    · intro h
      obtain ⟨values, group, hfull, hspells, hgroupPos, hgroupLe, rfl⟩ := h
      -- A group of one character is refused at once, but one byte takes two characters already.
      have hcount := length_sextets group hgroupPos hgroupLe
      have hlast := hspells.length_eq
      rw [if_neg (by omega)]
      simp only [hoffset, List.take_left, List.drop_left]
      rw [readFull_eq_ok_iff.mpr hfull, ok_bind,
        (readGroup_eq_ok_iff hle).mpr ⟨hspells, hgroupPos, hgroupLe⟩, ok_bind]
      rfl

/-- Every text with a reading is the encoding of what was read. -/
theorem eq_encode_of_decode {text bytes : Bytes} (h : decode text = .ok bytes) :
    text = encode bytes := by
  by_cases hnil : text = []
  · subst hnil
    obtain rfl : [] = bytes := Except.ok.inj h
    rfl
  · obtain ⟨whole, last, rfl, hwhole, hpos, hle⟩ := exists_last_group 4 (by omega) hnil
    obtain ⟨values, group, hfull, hlast, hgroupPos, hgroupLe, rfl⟩ :=
      (decode_append_eq_ok_iff hwhole hpos hle).mp h
    rw [hfull.length_eq] at hwhole
    obtain ⟨hencode, hthree⟩ := encode_octets values hfull.2 hwhole
    rw [encode_append _ _ hthree, hencode, encode_group group hgroupPos hgroupLe, ← hfull.1,
      ← hlast.1]

/-- An encoding is read as what was written. -/
theorem decode_encode (bytes : Bytes) : decode (encode bytes) = .ok bytes := by
  by_cases hnil : bytes = []
  · subst hnil
    rfl
  · obtain ⟨whole, group, rfl, hwhole, hgroupPos, hgroupLe⟩ :=
      exists_last_group 3 (by omega) hnil
    obtain ⟨values, hfull, hvalues⟩ := octets_of_encode whole hwhole
    have hwholeLength := length_encode whole
    have hgroupLength := length_encode group
    rw [encode_append whole group hwhole]
    refine (decode_append_eq_ok_iff (by omega) (by omega) (by omega)).mpr ⟨values, group, hfull, ?_,
      hgroupPos, hgroupLe, by rw [hvalues]⟩
    exact ⟨encode_group group hgroupPos hgroupLe, sextets_lt group⟩

/-- A text is read as a byte string exactly when it is the encoding of that byte string. -/
theorem decode_eq_ok_iff {text bytes : Bytes} : decode text = .ok bytes ↔ text = encode bytes := by
  refine ⟨?_, ?_⟩
  · exact eq_encode_of_decode
  · intro h
    obtain rfl := h
    exact decode_encode bytes

/-- The last of two lists of numbers that are put together is the last of the second one. -/
theorem getLastD_append {front back : List Nat} (h : back ≠ []) :
    (front ++ back).getLastD 0 = back.getLastD 0 := by
  rw [List.getLastD_eq_getLast?, List.getLastD_eq_getLast?, List.getLast?_append,
    List.getLast?_eq_some_getLast h, Option.some_or]

/-- A text is an encoding exactly when all of it is symbols, the last group has more than one, and
the bits that this group does not need are zero. -/
theorem exists_encode_iff {text : Bytes} : (∃ bytes, text = encode bytes) ↔
    ∃ values, Spells text values ∧ text.length % 4 ≠ 1 ∧
      values.getLastD 0 % unusedRange (text.length % 4) = 0 := by
  simp only [← decode_eq_ok_iff]
  by_cases hnil : text = []
  · subst hnil
    exact ⟨fun _ => ⟨[], spells_nil, by decide, rfl⟩, fun _ => ⟨[], rfl⟩⟩
  obtain ⟨whole, last, rfl, hwhole, hpos, hle⟩ := exists_last_group 4 (by omega) hnil
  have hlength : (whole ++ last).length = whole.length + last.length := List.length_append
  -- A full last group counts as none beyond the whole ones; neither has unused bits.
  have hunused : unusedRange ((whole ++ last).length % 4) = unusedRange last.length := by
    by_cases hfull : last.length = 4
    · rw [hfull, show (whole ++ last).length % 4 = 0 by omega]
      rfl
    · rw [show (whole ++ last).length % 4 = last.length by omega]
  simp only [decode_append_eq_ok_iff hwhole hpos hle, hunused]
  refine ⟨?_, ?_⟩
  · intro h
    obtain ⟨-, values, group, hfull, hlast, hgroupPos, hgroupLe, -⟩ := h
    have hcount := length_sextets group hgroupPos hgroupLe
    have hlastLength := hlast.length_eq
    refine ⟨values ++ sextets group, spells_append_iff.mpr ⟨values, _, rfl, hfull, hlast⟩,
      by omega, ?_⟩
    rw [getLastD_append (List.length_pos_iff.mp (by omega)), hlastLength]
    exact getLastD_sextets_mod group
  · intro h
    obtain ⟨values, hspells, hmany, hzero⟩ := h
    obtain ⟨front, back, rfl, hfront, hback⟩ := spells_append_iff.mp hspells
    have hbackLength := hback.length_eq
    have hgroup : sextets (octets back) = back := by
      refine sextets_octets back hback.2 (by omega) (by omega) ?_
      rwa [getLastD_append (List.length_pos_iff.mp (by omega)), hbackLength] at hzero
    have hcount := length_octets back (by omega) (by omega)
    refine ⟨_, front, octets back, hfront, ?_, by omega, by omega, rfl⟩
    rw [hgroup]
    exact hback

/-- An encoding is one line. -/
theorem lineFeed_notMem_encode (bytes : Bytes) : lineFeed ∉ encode bytes := by
  intro hmem
  obtain ⟨value, hvalue, hsymbol⟩ := List.mem_map.mp hmem
  obtain ⟨piece, -, hpiece⟩ := List.mem_flatMap.mp hvalue
  exact ne_symbol_of_value? (by decide) (sextets_lt piece value hpiece) hsymbol.symm

end AgeFile.Base64
