import AgeFile.Bytes.Pieces

/-!
# Canonical base64 without padding

Three bytes are four symbols of the standard alphabet; one or two bytes left over are two or three
symbols, and the bits that these do not need are zero. There is no padding. Decoding refuses every
text that encoding does not write, and says which of its bytes is at fault. `length_encode` gives
the number of characters of an encoding.
-/

namespace AgeFile.Base64

/-- Why a text is not the encoding of a byte string. -/
inductive Fault where
  /-- A byte that is no symbol where a symbol is needed. -/
  | symbol (byte : UInt8) (offset : Nat)
  /-- A last symbol with a bit set that the encoding does not use. -/
  | lastSymbol (byte : UInt8) (offset : Nat)
  /-- A number of symbols that no byte string has. -/
  | length (count : Nat)
  /-- Padding after the last symbol. -/
  | padding
  deriving DecidableEq

/-- A fault in words. -/
def Fault.message : Fault → String
  | .symbol byte offset =>
      "Invalid symbol " ++ toString byte.toNat ++ ", offset " ++ toString offset ++ "."
  | .lastSymbol byte offset =>
      "Invalid last symbol " ++ toString byte.toNat ++ ", offset " ++ toString offset ++ "."
  | .length count => "Invalid input length: " ++ toString count
  | .padding => "Invalid padding"

/-- The byte that other encodings fill the last group with, the equals sign. -/
def pad : UInt8 := 0x3d

/-- The symbol of a number below 64: capital letters, small letters, digits, plus and slash. -/
def symbol (value : Nat) : UInt8 :=
  if value < 26 then UInt8.ofNat (value + 65)
  else if value < 52 then UInt8.ofNat (value + 71)
  else if value < 62 then UInt8.ofNat (value - 4)
  else if value = 62 then 0x2b
  else 0x2f

/-- The number that a symbol stands for; a byte outside the alphabet stands for none. -/
def value? (byte : UInt8) : Option Nat :=
  if 65 ≤ byte.toNat ∧ byte.toNat ≤ 90 then some (byte.toNat - 65)
  else if 97 ≤ byte.toNat ∧ byte.toNat ≤ 122 then some (byte.toNat - 71)
  else if 48 ≤ byte.toNat ∧ byte.toNat ≤ 57 then some (byte.toNat + 4)
  else if byte = 0x2b then some 62
  else if byte = 0x2f then some 63
  else none

/-- The numbers below 64 that one to three bytes are written as. -/
def sextets : Bytes → List Nat
  | [a] => [a.toNat / 4, a.toNat % 4 * 16]
  | [a, b] => [a.toNat / 4, a.toNat % 4 * 16 + b.toNat / 16, b.toNat % 16 * 4]
  | [a, b, c] =>
      [a.toNat / 4, a.toNat % 4 * 16 + b.toNat / 16, b.toNat % 16 * 4 + c.toNat / 64,
        c.toNat % 64]
  | _ => []

/-- The one to three bytes that two to four numbers below 64 spell. -/
def octets : List Nat → Bytes
  | [p, q] => [UInt8.ofNat (p * 4 + q / 16)]
  | [p, q, r] => [UInt8.ofNat (p * 4 + q / 16), UInt8.ofNat (q % 16 * 16 + r / 4)]
  | [p, q, r, s] =>
      [UInt8.ofNat (p * 4 + q / 16), UInt8.ofNat (q % 16 * 16 + r / 4),
        UInt8.ofNat (r % 4 * 64 + s)]
  | _ => []

/-- The encoding of a byte string. -/
def encode (bytes : Bytes) : Bytes :=
  ((pieces 3 bytes).flatMap sextets).map symbol

/-- The numbers of a stretch in which every byte must be a symbol; `offset` is the place of its
first byte. -/
def readFull (offset : Nat) (stretch : Bytes) : Except Fault (List Nat) :=
  match stretch.findIdx? fun b => (value? b).isNone with
  | some i => .error (.symbol (stretch.getD i 0) (offset + i))
  | none => .ok (stretch.filterMap value?)

/-- The numbers of the last group, which starts at `offset`, from its byte number `index` on, and
whether it is padded. Padding may follow the second symbol; `padding` is the index of the first
padding byte met so far, and a symbol after it makes that byte the fault. -/
def readLast (offset : Nat) : (index : Nat) → (padding : Option Nat) → Bytes →
    Except Fault (List Nat × Option Nat)
  | _, padding, [] => .ok ([], padding)
  | index, padding, byte :: rest =>
      if byte = pad then
        if index < 2 then .error (.symbol byte (offset + index))
        else readLast offset (index + 1) (padding.or (some index)) rest
      else
        match padding with
        | some first => .error (.symbol pad (offset + first))
        | none =>
            match value? byte with
            | none => .error (.symbol byte (offset + index))
            | some value => do
                let (values, padding) ← readLast offset (index + 1) none rest
                return (value :: values, padding)

/-- How many values the bits that a last symbol does not need can take, by the number of symbols in
its group. -/
def unusedRange (count : Nat) : Nat :=
  if count = 2 then 16 else if count = 3 then 4 else 1

/-- The bytes of the last group, which starts at `offset`: it needs two symbols, no padding, and
zero in the bits that belong to no byte. -/
def readGroup (offset : Nat) (group : Bytes) : Except Fault Bytes := do
  let (values, padding) ← readLast offset 0 none group
  if values.length < 2 then .error (.length (offset + values.length))
  else if padding.isSome then .error .padding
  else if values.getLastD 0 % unusedRange values.length ≠ 0 then
    .error (.lastSymbol (group.getLastD 0) (offset + values.length - 1))
  else .ok (octets values)

/-- The byte string that a text encodes. A single byte left over after the groups is reported
before anything else if it is no symbol; then the groups are read from the front. -/
def decode (text : Bytes) : Except Fault Bytes :=
  match text.getLast? with
  | none => .ok []
  | some last =>
      if text.length % 4 = 1 ∧ last ≠ pad ∧ value? last = none then
        .error (.symbol last (text.length - 1))
      else do
        let offset := (text.length - 1) / 4 * 4
        let values ← readFull 0 (text.take offset)
        let group ← readGroup offset (text.drop offset)
        return (pieces 4 values).flatMap octets ++ group

/-- The numbers of one to three bytes are one more than the bytes. -/
theorem length_sextets (bytes : Bytes) (hpos : 0 < bytes.length) (hle : bytes.length ≤ 3) :
    (sextets bytes).length = bytes.length + 1 := by
  match bytes with
  | [] => simp at hpos
  | [_] | [_, _] | [_, _, _] => rfl
  | _ :: _ :: _ :: _ :: _ => simp only [List.length_cons] at hle; omega

/-- Three bytes take four characters, and a part of three bytes as many as it needs. -/
theorem length_encode (bytes : Bytes) : (encode bytes).length = (4 * bytes.length + 2) / 3 := by
  rw [encode, List.length_map]
  induction hlen : bytes.length using Nat.strongRecOn generalizing bytes with
  | ind n ih =>
      by_cases hnil : bytes = []
      · subst hnil
        simp only [List.length_nil] at hlen
        subst hlen
        rfl
      · have hpos : 0 < bytes.length := List.length_pos_iff.mpr hnil
        rw [pieces_of_ne_nil 3 (by omega) _ hnil, List.flatMap_cons, List.length_append,
          length_sextets _ (by rw [List.length_take]; omega) (by rw [List.length_take]; omega),
          ih (bytes.drop 3).length (by rw [List.length_drop]; omega) _ rfl, List.length_drop,
          List.length_take]
        omega

end AgeFile.Base64
