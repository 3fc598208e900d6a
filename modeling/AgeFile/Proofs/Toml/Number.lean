import AgeFile.Toml.Number

/-!
# Reading decimal numbers

A number that is written in decimal digits is read back, if it has 64 bits with its sign:
`integer?_toDigits`. The digits hold no underscore, no sign and no letter, and only the number zero
begins with a zero, so of the spellings of integers the plain decimal one applies to them and no
other.
-/

namespace AgeFile.Toml

variable {n : Nat} {c : Char} {chars : List Char}

/-- What the decimal digits of a number are. -/
theorem isDigit_of_mem (h : c ∈ Nat.toDigits 10 n) : c.isDigit = true :=
  Nat.isDigit_of_mem_toDigits (by decide) (by decide) h

/-- A decimal digit has the value that it is counted from zero. -/
theorem digitValue?_of_isDigit (h : c.isDigit = true) :
    digitValue? 10 c = some (c.toNat - '0'.toNat) := by
  obtain ⟨hlow, hhigh⟩ := Char.isDigit_iff_toNat.mp h
  have hlt : c.toNat - '0'.toNat < 10 := by
    have hnine : c.toNat ≤ 57 := hhigh
    show c.toNat - 48 < 10
    omega
  have hrange : '0' ≤ c ∧ c ≤ '9' := ⟨hlow, hhigh⟩
  rw [digitValue?, if_pos hrange, if_pos hlt]

/-- Decimal digits have their values one by one. -/
theorem digitValues?_of_isDigit {afterDigit : Bool} (h : ∀ c ∈ chars, c.isDigit = true)
    (hsome : afterDigit = true ∨ chars ≠ []) :
    digitValues? 10 afterDigit chars = some (chars.map fun c => c.toNat - '0'.toNat) := by
  induction chars generalizing afterDigit with
  | nil => rw [digitValues?, if_pos (hsome.resolve_right (by simp)), List.map_nil]
  | cons c chars ih =>
      obtain ⟨hc, hchars⟩ := List.forall_mem_cons.mp h
      have hscore : c ≠ '_' := by
        rintro rfl
        exact absurd hc (by decide)
      rw [digitValues?, if_neg hscore, digitValue?_of_isDigit hc, ih hchars (Or.inl rfl)]
      rfl

/-- The values of the decimal digits of a number spell it. -/
theorem ofDigits_toDigits (n : Nat) :
    ofDigits 10 ((Nat.toDigits 10 n).map fun c => c.toNat - '0'.toNat) = n := by
  rw [ofDigits, List.foldl_map]
  exact Nat.ofDigitChars_ten_toDigits

/-- Only the number zero begins with a zero. -/
theorem eq_zero_of_head_toDigits (h : (Nat.toDigits 10 n).head? = some '0') : n = 0 := by
  induction n using Nat.strongRecOn with
  | ind n ih =>
      rw [Nat.toDigits_eq_if (by decide)] at h
      split at h
      · exact Nat.digitChar_eq_zero.mp (Option.some.inj h)
      · obtain ⟨d, front, hfront⟩ := List.exists_cons_of_ne_nil (Nat.toDigits_ne_nil (n := n / 10))
        rw [hfront] at h
        have hzero := ih (n / 10) (by omega) (hfront ▸ h)
        omega

/-- The decimal digits of a number are those of a decimal number. -/
theorem decimalDigits?_toDigits (n : Nat) : decimalDigits? (Nat.toDigits 10 n) =
    some ((Nat.toDigits 10 n).map fun c => c.toNat - '0'.toNat) := by
  have hvalues : digitValues? 10 false (Nat.toDigits 10 n) =
      some ((Nat.toDigits 10 n).map fun c => c.toNat - '0'.toNat) :=
    digitValues?_of_isDigit (fun c hc => isDigit_of_mem hc) (Or.inr Nat.toDigits_ne_nil)
  have hhead : ¬ (((Nat.toDigits 10 n).map fun c => c.toNat - '0'.toNat).head? = some 0 ∧
      ((Nat.toDigits 10 n).map fun c => c.toNat - '0'.toNat).length ≠ 1) := by
    rintro ⟨hfirst, hlength⟩
    obtain ⟨c, hc, hvalue⟩ := Option.map_eq_some_iff.mp (List.head?_map ▸ hfirst)
    obtain ⟨hlow, -⟩ := Char.isDigit_iff_toNat.mp (isDigit_of_mem (List.mem_of_mem_head? hc))
    have hzero : c = '0' := Char.toNat_inj.mp (by omega)
    obtain rfl := eq_zero_of_head_toDigits (hzero ▸ hc)
    exact hlength rfl
  rw [decimalDigits?, hvalues]
  exact if_neg hhead

/-- The decimal digits of a number spell it as an integer. -/
theorem wideInteger?_toDigits (n : Nat) : wideInteger? (Nat.toDigits 10 n) = some (n : Int) := by
  have hdigit : ∀ c ∈ Nat.toDigits 10 n, c.isDigit = true := fun c hc => isDigit_of_mem hc
  unfold wideInteger?
  split
  case h_6 => rw [decimalDigits?_toDigits, Option.map_some, ofDigits_toDigits]; rfl
  all_goals
    rename_i heq
    rw [heq] at hdigit
    simp at hdigit

/-- A number below 2⁶³ is read from its decimal digits. -/
theorem integer?_toDigits (h : n < 0x8000000000000000) :
    integer? (Nat.toDigits 10 n) = some (n : Int) := by
  have hrange : -0x8000000000000000 ≤ (n : Int) ∧ (n : Int) < 0x8000000000000000 := by omega
  rw [integer?, wideInteger?_toDigits, Option.bind_eq_bind, Option.bind_some, if_pos hrange]

end AgeFile.Toml
