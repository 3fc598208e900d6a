/-!
# Membership in a table of ranges

A property of characters is kept as an ascending table of code point ranges. `inRanges` looks a
code point up in a table by halving it, in as many rounds as the table has entries and one more.
-/

namespace AgeFile.Text

/-- Look for a range that holds `n` between the entries `low` and `high` of an ascending table,
halving the stretch in each of at most `steps` rounds. -/
def inRangesBetween (table : Array (Nat × Nat)) (n : Nat) : (steps low high : Nat) → Bool
  | 0, _, _ => false
  | steps + 1, low, high =>
      if low < high then
        match table[(low + high) / 2]? with
        | none => false
        | some (first, last) =>
            if n < first then inRangesBetween table n steps low ((low + high) / 2)
            else if last < n then inRangesBetween table n steps ((low + high) / 2 + 1) high
            else true
      else false

/-- Whether a number lies in one of the ranges of an ascending table. -/
def inRanges (table : Array (Nat × Nat)) (n : Nat) : Bool :=
  inRangesBetween table n (table.size + 1) 0 table.size

end AgeFile.Text
