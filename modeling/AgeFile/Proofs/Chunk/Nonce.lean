import AgeFile.Chunk.Nonce
import AgeFile.Proofs.Bytes.Number

/-!
# Runs of a chunk nonce

A nonce is asked, any number of times and in any order, to go on to the next chunk or to mark its
chunk as the last one. Read `Step` first: it lists all that one call can do. `run_ofCounter` draws
from it what holds after every run: the number counts the calls that went on, and no nonce comes up
a second time.
-/

namespace AgeFile.ChunkNonce

/-- The number of the chunk. -/
def number (nonce : ChunkNonce) : Nat :=
  Bytes.ofBigEndian nonce.counter.bytes

/-- The number that all bytes of a nonce spell. -/
def value (nonce : ChunkNonce) : Nat :=
  Bytes.ofBigEndian nonce.toNonce.bytes

/-- A call to a nonce. -/
inductive Call where
  /-- Go on to the next chunk. -/
  | increment
  /-- Mark the chunk as the last one. -/
  | setLast
  deriving DecidableEq

/-- What a nonce answers to a call, and the nonce afterwards. -/
def call (nonce : ChunkNonce) : Call → Except Error Unit × ChunkNonce
  | .increment => nonce.increment
  | .setLast => nonce.setLast

/-- A call that was made: what was answered, and the nonce afterwards. -/
structure Event where
  call : Call
  answer : Except Error Unit
  after : ChunkNonce

/-- Whether the call succeeded. -/
def Event.succeeded (event : Event) : Bool :=
  event.answer.isOk

/-- Whether this call was made and succeeded. -/
def Event.made (call : Call) (event : Event) : Bool :=
  event.call == call && event.succeeded

/-- Calls made one after the other, whatever is answered: what happened, and the last nonce. -/
def run (nonce : ChunkNonce) : List Call → List Event × ChunkNonce
  | [] => ([], nonce)
  | call :: calls =>
      let (answer, after) := nonce.call call
      let (events, final) := run after calls
      (⟨call, answer, after⟩ :: events, final)

/-! ## Numbers and bytes -/

variable {nonce after : ChunkNonce}

/-- The flag is the lowest digit of a nonce. -/
theorem value_eq (nonce : ChunkNonce) : nonce.value = 256 * nonce.number + nonce.flag.toNat :=
  Bytes.ofBigEndian_append_singleton _ _

/-- Adding one to the bytes of a number adds one to the number, unless it is the greatest. -/
theorem ofLittleEndian_addOne {bytes : Bytes} (h : bytes.all (· == 0xff) = false) :
    Bytes.ofLittleEndian (addOne bytes) = Bytes.ofLittleEndian bytes + 1 := by
  induction bytes with
  | nil => exact absurd h (by simp)
  | cons b bytes ih =>
      have hb := b.toNat_lt
      have hnext : (b + 1).toNat = (b.toNat + 1) % 256 := UInt8.toNat_add b 1
      rw [addOne, Bytes.ofLittleEndian_cons, Bytes.ofLittleEndian_cons, hnext]
      by_cases hmax : b = 0xff
      · -- The byte overflows to zero, and the carry goes into the bytes after it.
        rw [List.all_cons, hmax, beq_self_eq_true, Bool.true_and] at h
        have hvalue : b.toNat = 255 := congrArg UInt8.toNat hmax
        rw [if_pos hmax, ih h, hvalue]
        omega
      · have hvalue : b.toNat ≠ 255 := fun hvalue => hmax (UInt8.toNat_inj.mp hvalue)
        rw [if_neg hmax]
        omega

/-- The bytes after those of a number spell the next number, unless it is the greatest. -/
theorem ofBigEndian_succ {counter : FixedBytes Format.chunkCounterSize}
    (h : counter.bytes.all (· == 0xff) = false) :
    Bytes.ofBigEndian (succ counter).bytes = Bytes.ofBigEndian counter.bytes + 1 := by
  rw [succ, Bytes.ofBigEndian_eq_reverse, Bytes.ofBigEndian_eq_reverse, List.reverse_reverse]
  exact ofLittleEndian_addOne (by rw [List.all_reverse, h])

/-- The counter is exhausted at the greatest number that it can spell. -/
theorem all_max_iff_number : nonce.counter.bytes.all (· == 0xff) = true ↔
    nonce.number + 1 = Nat.pow 256 Format.chunkCounterSize := by
  rw [number, Bytes.ofBigEndian_eq_reverse, ← List.all_reverse, Bytes.all_max_iff,
    List.length_reverse, nonce.counter.length_eq]

/-- The number never reaches the power of 256 that its bytes could not spell. -/
theorem number_lt (nonce : ChunkNonce) :
    nonce.number < Nat.pow 256 Format.chunkCounterSize := by
  have h := Bytes.ofLittleEndian_lt nonce.counter.bytes.reverse
  rw [List.length_reverse, nonce.counter.length_eq] at h
  rw [number, Bytes.ofBigEndian_eq_reverse]
  exact h

/-- A chunk is not the first one exactly when its number is not zero. -/
theorem isNotFirst_iff : nonce.isNotFirst = true ↔ nonce.number ≠ 0 := by
  rw [isNotFirst, ← List.any_reverse, Bytes.any_ne_zero_iff, number, Bytes.ofBigEndian_eq_reverse]

/-- A chunk is the last one exactly when its flag is set. -/
theorem last_iff : nonce.last = true ↔ nonce.flag = 1 := beq_iff_eq

/-! ## One call -/

/-- What a call to a nonce can do: the call, its answer, and the nonce afterwards. -/
inductive Step (nonce : ChunkNonce) : Call → Except Error Unit → ChunkNonce → Prop
  /-- The chunk is followed by the next one. -/
  | counted {after : ChunkNonce} (hflag : nonce.flag ≠ 1) (hsame : after.flag = nonce.flag)
      (hnumber : after.number = nonce.number + 1) : Step nonce .increment (.ok ()) after
  /-- The chunk becomes the last one. -/
  | marked (hflag : nonce.flag ≠ 1) : Step nonce .setLast (.ok ()) { nonce with flag := 1 }
  /-- There is no number after the greatest. -/
  | exhausted (hflag : nonce.flag ≠ 1)
      (hnumber : nonce.number + 1 = Nat.pow 256 Format.chunkCounterSize) :
      Step nonce .increment (.error .counterExhausted) nonce
  /-- Nothing comes after the last chunk. -/
  | spent {call : Call} (hflag : nonce.flag = 1) :
      Step nonce call (.error .nonceFinalized) nonce

/-- A call does one of these. -/
theorem step_call (nonce : ChunkNonce) (call : Call) :
    Step nonce call (nonce.call call).1 (nonce.call call).2 := by
  by_cases hflag : nonce.flag = 1
  · have hlast : nonce.last = true := last_iff.mpr hflag
    cases call with
    | increment =>
        rw [ChunkNonce.call, increment, if_pos hlast]
        exact .spent hflag
    | setLast =>
        rw [ChunkNonce.call, setLast, if_pos hlast]
        exact .spent hflag
  · have hlast : ¬ nonce.last = true := fun hlast => hflag (last_iff.mp hlast)
    cases call with
    | increment =>
        rw [ChunkNonce.call, increment, if_neg hlast]
        cases hmax : nonce.counter.bytes.all (· == 0xff) with
        | true =>
            rw [if_pos rfl]
            exact .exhausted hflag (all_max_iff_number.mp hmax)
        | false =>
            rw [if_neg Bool.false_ne_true]
            exact .counted hflag rfl (ofBigEndian_succ hmax)
    | setLast =>
        rw [ChunkNonce.call, setLast, if_neg hlast]
        exact .marked hflag

/-- A call that fails leaves the nonce as it was. -/
theorem Step.eq_of_error {call : Call} {e : Error} (h : Step nonce call (.error e) after) :
    after = nonce := by
  cases h with
  | exhausted | spent => rfl

/-- A call leaves the flag zero or one. -/
theorem Step.flag {call : Call} {answer : Except Error Unit} (h : Step nonce call answer after)
    (hflag : nonce.flag = 0 ∨ nonce.flag = 1) : after.flag = 0 ∨ after.flag = 1 := by
  cases h with
  | counted _ hsame => rwa [hsame]
  | marked => exact Or.inr rfl
  | exhausted | spent => exact hflag

/-- A call that succeeds leads to a greater nonce. -/
theorem Step.value_lt {call : Call} (h : Step nonce call (.ok ()) after)
    (hflag : nonce.flag = 0 ∨ nonce.flag = 1) : nonce.value < after.value := by
  rw [value_eq, value_eq]
  cases h with
  | counted _ hsame hnumber =>
      rw [hsame, hnumber]
      omega
  | marked hunset =>
      have hzero : nonce.flag = 0 := hflag.resolve_right hunset
      rw [hzero]
      show 256 * nonce.number + 0 < 256 * nonce.number + 1
      omega

/-- A call that goes on raises the number by one, and no other call changes it. -/
theorem Step.number {call : Call} {answer : Except Error Unit} (h : Step nonce call answer after) :
    after.number =
      nonce.number + if Event.made .increment ⟨call, answer, after⟩ then 1 else 0 := by
  cases h with
  | counted _ _ hnumber => exact hnumber
  | marked => rfl
  | exhausted => rfl
  | spent => cases call <;> rfl

/-- A call that marks the chunk sets the flag, and no other call changes it. -/
theorem Step.flag_toNat {call : Call} {answer : Except Error Unit}
    (h : Step nonce call answer after) (hflag : nonce.flag = 0 ∨ nonce.flag = 1) :
    after.flag.toNat =
      nonce.flag.toNat + if Event.made .setLast ⟨call, answer, after⟩ then 1 else 0 := by
  cases h with
  | counted _ hsame => exact congrArg UInt8.toNat hsame
  | marked hunset =>
      rw [hflag.resolve_right hunset]
      rfl
  | exhausted => rfl
  | spent => cases call <;> rfl

/-- After a call to mark the chunk the flag is set, whether the call succeeded or not. -/
theorem Step.flag_eq_one_iff {call : Call} {answer : Except Error Unit}
    (h : Step nonce call answer after) : after.flag = 1 ↔ nonce.flag = 1 ∨ call = .setLast := by
  cases h with
  | counted _ hsame => simp [hsame]
  | marked => simp
  | exhausted => simp
  | spent hflag => simp [hflag]

/-! ## Runs -/

variable {calls : List Call}

/-- A run begins with its first call. -/
theorem run_cons (nonce : ChunkNonce) (call : Call) (calls : List Call) :
    nonce.run (call :: calls) =
      (⟨call, (nonce.call call).1, (nonce.call call).2⟩ :: ((nonce.call call).2.run calls).1,
        ((nonce.call call).2.run calls).2) := rfl

/-- Calls leave the flag zero or one. -/
theorem flag_run (hflag : nonce.flag = 0 ∨ nonce.flag = 1) :
    (nonce.run calls).2.flag = 0 ∨ (nonce.run calls).2.flag = 1 := by
  induction calls generalizing nonce with
  | nil => exact hflag
  | cons call calls ih => exact ih ((step_call nonce call).flag hflag)

/-- The number counts the calls that went on. -/
theorem number_run (nonce : ChunkNonce) (calls : List Call) :
    (nonce.run calls).2.number =
      nonce.number + (nonce.run calls).1.countP (Event.made .increment) := by
  induction calls generalizing nonce with
  | nil => rfl
  | cons call calls ih =>
      rw [run_cons, ih, (step_call nonce call).number, List.countP_cons]
      omega

/-- Each call that succeeds leads to a nonce greater than all before it. -/
theorem pairwise_run (hflag : nonce.flag = 0 ∨ nonce.flag = 1) :
    (nonce :: ((nonce.run calls).1.filter Event.succeeded).map Event.after).Pairwise
      fun earlier later => earlier.value < later.value := by
  induction calls generalizing nonce with
  | nil => exact List.pairwise_singleton _ _
  | cons call calls ih =>
      have hstep := step_call nonce call
      have hrest := ih (hstep.flag hflag)
      rw [run_cons, List.filter_cons]
      cases hanswer : (nonce.call call).1 with
      | error e =>
          rw [hanswer] at hstep
          rw [hstep.eq_of_error] at hrest ⊢
          exact hrest
      | ok done =>
          rw [hanswer] at hstep
          have hless := hstep.value_lt hflag
          refine List.pairwise_cons.mpr ⟨?_, hrest⟩
          intro later hlater
          rcases List.mem_cons.mp hlater with rfl | hlater
          · exact hless
          · exact Nat.lt_trans hless (List.rel_of_pairwise_cons hrest hlater)

/-- The flag counts the calls that marked the chunk. -/
theorem flag_toNat_run (hflag : nonce.flag = 0 ∨ nonce.flag = 1) :
    (nonce.run calls).2.flag.toNat =
      nonce.flag.toNat + (nonce.run calls).1.countP (Event.made .setLast) := by
  induction calls generalizing nonce with
  | nil => rfl
  | cons call calls ih =>
      have hstep := step_call nonce call
      rw [run_cons, ih (hstep.flag hflag), hstep.flag_toNat hflag, List.countP_cons]
      omega

/-- The flag is set exactly when it was before or a call asked for it. -/
theorem flag_run_eq_one_iff :
    (nonce.run calls).2.flag = 1 ↔ nonce.flag = 1 ∨ .setLast ∈ calls := by
  induction calls generalizing nonce with
  | nil => simp [run]
  | cons call calls ih =>
      rw [run_cons, ih, (step_call nonce call).flag_eq_one_iff, List.mem_cons, or_assoc,
        eq_comm (a := call)]

/-! ## After every run -/

/-- A nonce goes on unless its chunk is the last one or its number the greatest. -/
theorem increment_fst (nonce : ChunkNonce) :
    nonce.increment.1 =
      if nonce.flag = 1 then .error .nonceFinalized
      else if nonce.number = Nat.pow 2 88 - 1 then .error .counterExhausted
      else .ok () := by
  have hbound : Nat.pow 256 Format.chunkCounterSize = Nat.pow 2 88 := rfl
  have hstep := step_call nonce .increment
  show (nonce.call .increment).1 = _
  generalize nonce.call .increment = result at hstep ⊢
  obtain ⟨answer, after⟩ := result
  cases hstep with
  | counted hflag _ hnumber =>
      have hlt : nonce.number + 1 < Nat.pow 2 88 := hnumber ▸ number_lt after
      rw [if_neg hflag, if_neg (by omega)]
  | exhausted hflag hnumber =>
      rw [hbound] at hnumber
      rw [if_neg hflag, if_pos (by omega)]
  | spent hflag => rw [if_pos hflag]

/-- A nonce of a last chunk refuses every call. -/
theorem call_of_spent (hflag : nonce.flag = 1) (call : Call) :
    (nonce.call call).1 = .error .nonceFinalized := by
  have hstep := step_call nonce call
  generalize nonce.call call = result at hstep ⊢
  obtain ⟨answer, after⟩ := result
  cases hstep with
  | counted hunset | marked hunset | exhausted hunset => exact absurd hflag hunset
  | spent => rfl

/-- After any calls to a nonce that was not marked: the flag is zero or one, and the number has been
raised by the calls that went on, without wrapping. Every call that succeeded led to a greater
nonce, so none came up twice. A call that fails changes nothing. The nonce goes on unless it is
marked or its number is the greatest. It is marked once, by the first call that asks for it, which
sets the flag and nothing else; from then on every call fails. -/
theorem run_ofCounter (counter : FixedBytes Format.chunkCounterSize) (calls : List Call) :
    let start := ofCounter counter
    let events := (start.run calls).1
    let nonce := (start.run calls).2
    ((nonce.flag = 0 ∨ nonce.flag = 1) ∧
      nonce.number = start.number + events.countP (Event.made .increment) ∧
      nonce.number < Nat.pow 2 88) ∧
    (start :: (events.filter Event.succeeded).map Event.after).Pairwise
      (fun earlier later => earlier.value < later.value) ∧
    (∀ call e, (nonce.call call).1 = .error e → (nonce.call call).2.toNonce = nonce.toNonce) ∧
    nonce.increment.1 =
      (if nonce.flag = 1 then .error .nonceFinalized
      else if nonce.number = Nat.pow 2 88 - 1 then .error .counterExhausted
      else .ok ()) ∧
    (events.countP (Event.made .setLast) ≤ 1 ∧
      (events.countP (Event.made .setLast) = 1 ↔ .setLast ∈ calls) ∧
      (nonce.flag = 1 ↔ .setLast ∈ calls) ∧
      nonce.setLast =
        (if nonce.flag = 1 then (.error .nonceFinalized, nonce)
        else (.ok (), { nonce with flag := 1 })) ∧
      (.setLast ∈ calls → ∀ call, (nonce.call call).1 = .error .nonceFinalized)) ∧
    (nonce.isNotFirst = true ↔ nonce.number ≠ 0) ∧ (nonce.last = true ↔ nonce.flag = 1) := by
  intro start events nonce
  have hzero : start.flag = 0 := rfl
  have hflag : nonce.flag = 0 ∨ nonce.flag = 1 := flag_run (Or.inl hzero)
  have hmarks : nonce.flag.toNat = 0 + events.countP (Event.made .setLast) :=
    flag_toNat_run (Or.inl hzero)
  have hset : nonce.flag = 1 ↔ .setLast ∈ calls := by
    rw [flag_run_eq_one_iff, hzero]
    simp
  have hone : nonce.flag = 1 ↔ nonce.flag.toNat = 1 := UInt8.toNat_inj.symm
  refine ⟨⟨hflag, number_run start calls, number_lt nonce⟩, pairwise_run (Or.inl hzero), ?_,
    increment_fst nonce, ⟨?_, ?_, hset, ?_, ?_⟩, isNotFirst_iff, last_iff⟩
  · intro call e herror
    have hstep := step_call nonce call
    rw [herror] at hstep
    rw [hstep.eq_of_error]
  · rcases hflag with hunset | hset
    · have hcount : nonce.flag.toNat = 0 := congrArg UInt8.toNat hunset
      omega
    · have hcount : nonce.flag.toNat = 1 := congrArg UInt8.toNat hset
      omega
  · rw [← hset, hone]
    omega
  · cases hlast : nonce.last with
    | true => rw [setLast, hlast, if_pos rfl, if_pos (last_iff.mp hlast)]
    | false =>
        have hunset : nonce.flag ≠ 1 := fun hset => by simp [last_iff.mpr hset] at hlast
        rw [setLast, hlast, if_neg Bool.false_ne_true, if_neg hunset]
  · intro hcall
    exact call_of_spent (hset.mpr hcall)

end AgeFile.ChunkNonce
