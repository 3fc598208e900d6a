import AgeFile.Bytes.Basic

/-!
# Cutting a list into pieces

Block ciphers, hashes, base64 and wrapped lines all read a list in pieces of one size. The main
statement, `pieces_of_ne_nil`, says that the first piece is the first `size` elements and that the
others are the pieces of the rest.
-/

namespace AgeFile

universe u

variable {α : Type u}

/-- Cut pieces off the front of a list for at most `steps` rounds; `done` holds the earlier pieces,
the last of them first. -/
def piecesFrom (size : Nat) : (steps : Nat) → List α → (done : List (List α)) → List (List α)
  | 0, _, done => done.reverse
  | _ + 1, [], done => done.reverse
  | steps + 1, x :: xs, done =>
      piecesFrom size steps ((x :: xs).drop size) ((x :: xs).take size :: done)

/-- The pieces of `size` elements that a list consists of; only the last one may be shorter. -/
def pieces (size : Nat) (xs : List α) : List (List α) :=
  piecesFrom size xs.length xs []

/-- The pieces cut earlier come out in front of the others. -/
theorem piecesFrom_done (size steps : Nat) (xs : List α) (done : List (List α)) :
    piecesFrom size steps xs done = done.reverse ++ piecesFrom size steps xs [] := by
  induction steps generalizing xs done with
  | zero => simp [piecesFrom]
  | succ steps ih =>
      cases xs with
      | nil => simp [piecesFrom]
      | cons x xs =>
          rw [piecesFrom, piecesFrom, ih _ (_ :: done), ih _ [_]]
          simp

/-- Rounds beyond the length of the list change nothing. -/
theorem piecesFrom_steps (size : Nat) (hsize : 0 < size) (first second : Nat) (xs : List α)
    (hfirst : xs.length ≤ first) (hsecond : xs.length ≤ second) :
    piecesFrom size first xs [] = piecesFrom size second xs [] := by
  induction first generalizing second xs with
  | zero =>
      have hnil : xs = [] := List.length_eq_zero_iff.mp (by omega)
      subst hnil
      cases second <;> rfl
  | succ first ih =>
      cases xs with
      | nil => cases second <;> rfl
      | cons x xs =>
          cases second with
          | zero => simp at hsecond
          | succ second =>
              have hdrop : ((x :: xs).drop size).length ≤ xs.length := by
                simp only [List.length_drop, List.length_cons]
                omega
              simp only [List.length_cons] at hfirst hsecond
              rw [piecesFrom, piecesFrom, piecesFrom_done, piecesFrom_done size second,
                ih second _ (by omega) (by omega)]

/-- The empty list has no pieces. -/
@[simp] theorem pieces_nil (size : Nat) : pieces size ([] : List α) = [] := rfl

/-- The first piece is the first `size` elements; the others are the pieces of the rest. -/
theorem pieces_of_ne_nil (size : Nat) (hsize : 0 < size) (xs : List α) (hxs : xs ≠ []) :
    pieces size xs = xs.take size :: pieces size (xs.drop size) := by
  cases xs with
  | nil => exact absurd rfl hxs
  | cons x xs =>
      have hdrop : ((x :: xs).drop size).length ≤ xs.length := by
        simp only [List.length_drop, List.length_cons]
        omega
      rw [pieces, List.length_cons, piecesFrom, piecesFrom_done, pieces,
        piecesFrom_steps size hsize _ _ _ hdrop (Nat.le_refl _)]
      rfl

/-- Nothing is lost: the pieces put together again are the list. -/
theorem flatten_pieces (size : Nat) (hsize : 0 < size) (xs : List α) :
    (pieces size xs).flatten = xs := by
  induction hlen : xs.length using Nat.strongRecOn generalizing xs with
  | ind n ih =>
      cases xs with
      | nil => rfl
      | cons x xs =>
          rw [pieces_of_ne_nil size hsize _ (List.cons_ne_nil x xs), List.flatten_cons,
            ih ((x :: xs).drop size).length (by simp at hlen ⊢; omega) _ rfl,
            List.take_append_drop]

/-- There are as many pieces as the length asks for, rounded up. -/
theorem length_pieces (size : Nat) (hsize : 0 < size) (xs : List α) :
    (pieces size xs).length = (xs.length + (size - 1)) / size := by
  induction hlen : xs.length using Nat.strongRecOn generalizing xs with
  | ind n ih =>
      cases xs with
      | nil =>
          simp only [List.length_nil] at hlen
          subst hlen
          simp [Nat.div_eq_of_lt (show size - 1 < size by omega)]
      | cons x xs =>
          have hdrop : ((x :: xs).drop size).length < n := by
            simp only [List.length_drop, List.length_cons] at hlen ⊢
            omega
          rw [pieces_of_ne_nil size hsize _ (List.cons_ne_nil x xs), List.length_cons,
            ih _ hdrop _ rfl, List.length_drop, hlen]
          simp only [List.length_cons] at hlen
          by_cases h : n ≤ size
          · rw [show n - size + (size - 1) = size - 1 by omega,
              Nat.div_eq_of_lt (show size - 1 < size by omega),
              show n + (size - 1) = n - 1 + 1 * size by omega, Nat.add_mul_div_right _ _ hsize,
              Nat.div_eq_of_lt (show n - 1 < size by omega)]
          · rw [show n + (size - 1) = n - size + (size - 1) + 1 * size by omega,
              Nat.add_mul_div_right _ _ hsize]

/-- Pieces of a list that is cut at a whole number of pieces are the pieces of both parts. -/
theorem pieces_append (size : Nat) (hsize : 0 < size) (first second : List α)
    (hfirst : first.length % size = 0) :
    pieces size (first ++ second) = pieces size first ++ pieces size second := by
  induction hlen : first.length using Nat.strongRecOn generalizing first with
  | ind n ih =>
      by_cases hnil : first = []
      · subst hnil
        rfl
      · have hpos : 0 < first.length := List.length_pos_iff.mpr hnil
        have hle : size ≤ first.length := Nat.le_of_dvd hpos (Nat.dvd_of_mod_eq_zero hfirst)
        have hrest : (first.drop size).length % size = 0 := by
          rw [List.length_drop, ← Nat.mod_eq_sub_mod hle, hfirst]
        rw [pieces_of_ne_nil size hsize _ (by simp [hnil]), pieces_of_ne_nil size hsize first hnil,
          List.take_append_of_le_length hle, List.drop_append_of_le_length hle,
          ih (first.drop size).length (by rw [List.length_drop]; omega) _ hrest rfl]
        rfl

/-- A joined list of lines is as long as the list and the line ends together. -/
theorem length_flatMap_append {β : Type u} (pieces : List (List β)) (stop : β) :
    (pieces.flatMap fun piece => piece ++ [stop]).length =
      pieces.flatten.length + pieces.length := by
  induction pieces with
  | nil => rfl
  | cons piece pieces ih =>
      simp only [List.flatMap_cons, List.length_append, ih, List.flatten_cons, List.length_cons,
        List.length_nil]
      omega

end AgeFile
