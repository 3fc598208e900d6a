/-!
# Computations that can fail

How a result of a computation with an error is taken apart: a sequence succeeds exactly when both of
its parts do, and a map changes neither success nor the error.
-/

namespace AgeFile

universe u v

variable {ε : Type u} {α β : Type u}

@[simp] theorem ok_bind (a : α) (f : α → Except ε β) : (Except.ok a >>= f) = f a := rfl

@[simp] theorem error_bind (e : ε) (f : α → Except ε β) :
    (Except.error e >>= f) = .error e := rfl

@[simp] theorem pure_eq_ok (a : α) : (pure a : Except ε α) = .ok a := rfl

@[simp] theorem throw_eq_error (e : ε) : (throw e : Except ε α) = .error e := rfl

/-- A sequence succeeds exactly when the first part does and the second does on its result. -/
theorem bind_eq_ok_iff {x : Except ε α} {f : α → Except ε β} {b : β} :
    (x >>= f) = .ok b ↔ ∃ a, x = .ok a ∧ f a = .ok b := by
  cases x with
  | error e => simp
  | ok a => simp

/-- A sequence fails exactly when the first part does, or the second does on its result. -/
theorem bind_eq_error_iff {x : Except ε α} {f : α → Except ε β} {e : ε} :
    (x >>= f) = .error e ↔ x = .error e ∨ ∃ a, x = .ok a ∧ f a = .error e := by
  cases x with
  | error other => simp
  | ok a => simp

/-- A mapped computation succeeds exactly when it does so without the map. -/
theorem map_eq_ok_iff {x : Except ε α} {f : α → β} {b : β} :
    x.map f = .ok b ↔ ∃ a, x = .ok a ∧ f a = b := by
  cases x with
  | error e => simp [Except.map]
  | ok a => simp [Except.map]

/-- A mapped computation fails with the same error. -/
theorem map_eq_error_iff {x : Except ε α} {f : α → β} {e : ε} :
    x.map f = .error e ↔ x = .error e := by
  cases x with
  | error e => simp [Except.map]
  | ok a => simp [Except.map]

/-- Where a fallible step succeeds exactly on what a function gives back, a traversal succeeds
exactly on what this function gives back for each element. -/
theorem mapM_eq_ok_iff {γ : Type v} {f : γ → Except ε β} {g : β → γ}
    (h : ∀ c b, f c = .ok b ↔ g b = c) {cs : List γ} {bs : List β} :
    cs.mapM f = .ok bs ↔ bs.map g = cs := by
  induction cs generalizing bs with
  | nil => simp [eq_comm]
  | cons c cs ih =>
      rw [List.mapM_cons, bind_eq_ok_iff]
      refine ⟨?_, ?_⟩
      · intro hrun
        obtain ⟨b, hb, hrun⟩ := hrun
        obtain ⟨others, hothers, hrun⟩ := bind_eq_ok_iff.mp hrun
        obtain rfl := Except.ok.inj hrun
        rw [List.map_cons, (h c b).mp hb, ih.mp hothers]
      · intro hmap
        cases bs with
        | nil => exact absurd hmap (by simp)
        | cons b others =>
            obtain ⟨hb, hothers⟩ := List.cons.inj hmap
            exact ⟨b, (h c b).mpr hb, bind_eq_ok_iff.mpr ⟨others, ih.mpr hothers, rfl⟩⟩

/-- A traversal succeeds exactly when the step succeeds on every element, in the order of the
results. -/
theorem mapM_eq_ok_iff_forall {γ : Type v} {f : γ → Except ε β} {cs : List γ} {bs : List β} :
    cs.mapM f = .ok bs ↔
      bs.length = cs.length ∧
        ∀ (i : Nat) (c : γ), cs[i]? = some c → ∃ b, bs[i]? = some b ∧ f c = .ok b := by
  induction cs generalizing bs with
  | nil => simp [eq_comm]
  | cons c cs ih =>
      rw [List.mapM_cons, bind_eq_ok_iff]
      refine ⟨?_, ?_⟩
      · intro hrun
        obtain ⟨b, hb, hrun⟩ := hrun
        obtain ⟨others, hothers, hrun⟩ := bind_eq_ok_iff.mp hrun
        obtain rfl := Except.ok.inj hrun
        obtain ⟨hlength, hsteps⟩ := ih.mp hothers
        refine ⟨by rw [List.length_cons, hlength, List.length_cons], ?_⟩
        intro i d hd
        cases i with
        | zero =>
            obtain rfl := Option.some.inj hd
            exact ⟨b, rfl, hb⟩
        | succ i => exact hsteps i d hd
      · intro hsteps
        obtain ⟨hlength, hsteps⟩ := hsteps
        obtain ⟨b, hb, hfirst⟩ := hsteps 0 c rfl
        cases bs with
        | nil => exact absurd hb (by simp)
        | cons d others =>
            obtain rfl := Option.some.inj hb
            have hothers : cs.mapM f = .ok others :=
              ih.mpr ⟨Nat.succ.inj hlength, fun i c hc => hsteps (i + 1) c hc⟩
            exact ⟨d, hfirst, bind_eq_ok_iff.mpr ⟨others, hothers, rfl⟩⟩

/-- A traversal succeeds if the step does on every element. -/
theorem exists_mapM_eq_ok {γ : Type v} {f : γ → Except ε β} {cs : List γ}
    (h : ∀ c ∈ cs, ∃ b, f c = .ok b) : ∃ bs, cs.mapM f = .ok bs := by
  induction cs with
  | nil => exact ⟨[], rfl⟩
  | cons c cs ih =>
      obtain ⟨b, hb⟩ := h c List.mem_cons_self
      obtain ⟨bs, hbs⟩ := ih fun d hd => h d (List.mem_cons_of_mem c hd)
      exact ⟨b :: bs, by rw [List.mapM_cons, hb, ok_bind, hbs, ok_bind, pure_eq_ok]⟩

/-- A traversal fails with the error of the step on one of the elements. -/
theorem exists_of_mapM_eq_error {γ : Type v} {f : γ → Except ε β} {cs : List γ} {e : ε}
    (h : cs.mapM f = .error e) : ∃ c ∈ cs, f c = .error e := by
  induction cs with
  | nil => exact absurd h (by simp)
  | cons c cs ih =>
      rw [List.mapM_cons] at h
      rcases bind_eq_error_iff.mp h with hfirst | ⟨b, -, h⟩
      · exact ⟨c, List.mem_cons_self, hfirst⟩
      · rcases bind_eq_error_iff.mp h with hlater | ⟨bs, -, h⟩
        · obtain ⟨d, hd, hlater⟩ := ih hlater
          exact ⟨d, List.mem_cons_of_mem c hd, hlater⟩
        · exact absurd h (by simp)

end AgeFile
