/-!
# TOML numbers

Integers are decimal with an optional sign, or hexadecimal, octal or binary with a prefix; they are
signed and have 64 bits. Floats have a fraction, an exponent, or both. A single underscore may stand
between two digits.
-/

namespace AgeFile.Toml

/-- The value of a digit in a base up to sixteen. -/
def digitValue? (base : Nat) (c : Char) : Option Nat :=
  let value :=
    if '0' ≤ c ∧ c ≤ '9' then c.toNat - '0'.toNat
    else if 'a' ≤ c ∧ c ≤ 'f' then c.toNat - 'a'.toNat + 10
    else if 'A' ≤ c ∧ c ≤ 'F' then c.toNat - 'A'.toNat + 10
    else base
  if value < base then some value else none

/-- The values of digits of which some are separated by an underscore. The first and the last
character are digits, and so is one of any two neighbours; `afterDigit` says whether a digit stands
before the text. -/
def digitValues? (base : Nat) : (afterDigit : Bool) → List Char → Option (List Nat)
  | afterDigit, [] => if afterDigit then some [] else none
  | afterDigit, c :: chars =>
      if c = '_' then if afterDigit then digitValues? base false chars else none
      else do
        let value ← digitValue? base c
        let values ← digitValues? base true chars
        return value :: values

/-- The number that digits spell. -/
def ofDigits (base : Nat) (values : List Nat) : Nat :=
  values.foldl (fun n value => base * n + value) 0

/-- The digits of a decimal number; only the number zero begins with a zero. -/
def decimalDigits? (chars : List Char) : Option (List Nat) := do
  let values ← digitValues? 10 false chars
  if values.head? = some 0 ∧ values.length ≠ 1 then none else some values

/-- The integer that a sign and decimal digits, or a prefix and other digits, spell. -/
def wideInteger? : List Char → Option Int
  | '0' :: 'x' :: chars => (digitValues? 16 false chars).map fun ds => Int.ofNat (ofDigits 16 ds)
  | '0' :: 'o' :: chars => (digitValues? 8 false chars).map fun ds => Int.ofNat (ofDigits 8 ds)
  | '0' :: 'b' :: chars => (digitValues? 2 false chars).map fun ds => Int.ofNat (ofDigits 2 ds)
  | '+' :: chars => (decimalDigits? chars).map fun ds => Int.ofNat (ofDigits 10 ds)
  | '-' :: chars => (decimalDigits? chars).map fun ds => -Int.ofNat (ofDigits 10 ds)
  | chars => (decimalDigits? chars).map fun ds => Int.ofNat (ofDigits 10 ds)

/-- The integer that a text spells, if it has 64 bits. -/
def integer? (chars : List Char) : Option Int := do
  let n ← wideInteger? chars
  if -0x8000000000000000 ≤ n ∧ n < 0x8000000000000000 then some n else none

/-- Whether a positive decimal number, its digits times a power of ten, is too large for a double:
it rounds to infinity from halfway between the largest double and the next power of two on. -/
def isHuge (digits : Nat) (exponent : Int) : Bool :=
  let magnitude : Int := Int.ofNat (Nat.toDigits 10 digits).length + exponent
  if digits = 0 ∨ magnitude < 300 then false
  else if 320 < magnitude then true
  else
    let halfway := Nat.pow 2 1024 - Nat.pow 2 970
    if 0 ≤ exponent then halfway ≤ digits * Nat.pow 10 exponent.toNat
    else halfway * Nat.pow 10 (-exponent).toNat ≤ digits

/-- The exponent that stands after its letter, with an optional sign. -/
def exponent? : List Char → Option Int
  | '+' :: chars => (digitValues? 10 false chars).map fun ds => Int.ofNat (ofDigits 10 ds)
  | '-' :: chars => (digitValues? 10 false chars).map fun ds => -Int.ofNat (ofDigits 10 ds)
  | chars => (digitValues? 10 false chars).map fun ds => Int.ofNat (ofDigits 10 ds)

/-- The digits and the power of ten of a float without a sign, if a text spells one. -/
def unsignedFloat? (chars : List Char) : Option (Nat × Int) := do
  let isExponentLetter (c : Char) : Bool := c = 'e' ∨ c = 'E'
  let mantissa := chars.takeWhile fun c => !isExponentLetter c
  let whole ← decimalDigits? (mantissa.takeWhile (· ≠ '.'))
  let fraction ← match mantissa.dropWhile (· ≠ '.') with
    | [] => some []
    | _ :: chars => digitValues? 10 false chars
  let exponent ← match chars.dropWhile fun c => !isExponentLetter c with
    | [] => if fraction = [] then none else some 0
    | _ :: chars => exponent? chars
  return (ofDigits 10 (whole ++ fraction), exponent - fraction.length)

/-- Whether a text spells a float: a number within the range of a double, one below it, an infinity,
or no number at all. -/
def isFloat (chars : List Char) : Bool :=
  let (negative, unsigned) := match chars with
    | '+' :: chars => (false, chars)
    | '-' :: chars => (true, chars)
    | chars => (false, chars)
  if unsigned = "inf".toList ∨ unsigned = "nan".toList then true
  else
    match unsignedFloat? unsigned with
    | none => false
    | some (digits, exponent) => negative || !isHuge digits exponent

end AgeFile.Toml
