import AgeFile.Toml.Number

/-!
# TOML dates and times

A date, a time of day, or both; a date with a time may carry an offset from universal time.
-/

namespace AgeFile.Toml

/-- The number that decimal digits spell, if all characters are digits. -/
def digitsOnly? (chars : List Char) : Option Nat :=
  (chars.mapM (digitValue? 10)).map (ofDigits 10)

/-- The number of days of a month. -/
def daysInMonth (year month : Nat) : Nat :=
  if month = 2 then
    if year % 4 = 0 ∧ (year % 100 ≠ 0 ∨ year % 400 = 0) then 29 else 28
  else if month = 4 ∨ month = 6 ∨ month = 9 ∨ month = 11 then 30
  else 31

/-- Whether a text is a date: a year, a month and a day of that month. -/
def isDate : List Char → Bool
  | [y₁, y₂, y₃, y₄, '-', m₁, m₂, '-', d₁, d₂] =>
      match digitsOnly? [y₁, y₂, y₃, y₄], digitsOnly? [m₁, m₂], digitsOnly? [d₁, d₂] with
      | some year, some month, some day =>
          1 ≤ month ∧ month ≤ 12 ∧ 1 ≤ day ∧ day ≤ daysInMonth year month
      | _, _, _ => false
  | _ => false

/-- Whether two digits spell a number up to a greatest one. -/
def isUpTo (greatest : Nat) (c d : Char) : Bool :=
  match digitsOnly? [c, d] with
  | some n => n ≤ greatest
  | none => false

/-- What follows a time of day: hours, minutes, seconds with a leap second, and perhaps a fraction
of a second. -/
def afterTime? : List Char → Option (List Char)
  | h₁ :: h₂ :: ':' :: m₁ :: m₂ :: ':' :: s₁ :: s₂ :: rest =>
      if isUpTo 23 h₁ h₂ && isUpTo 59 m₁ m₂ && isUpTo 60 s₁ s₂ then
        match rest with
        | '.' :: c :: chars =>
            if c.isDigit then some (chars.dropWhile Char.isDigit) else none
        | rest => some rest
      else none
  | _ => none

/-- Whether a text is a time of day. -/
def isTime (chars : List Char) : Bool :=
  afterTime? chars = some []

/-- Whether a text is a time of day with or without an offset. -/
def isOffsetTime (chars : List Char) : Bool :=
  match afterTime? chars with
  | some [] | some ['Z'] | some ['z'] => true
  | some [sign, h₁, h₂, ':', m₁, m₂] =>
      (sign = '+' || sign = '-') && isUpTo 23 h₁ h₂ && isUpTo 59 m₁ m₂
  | _ => false

/-- Whether a text is a date, a time of day, or both with the letter T between them. -/
def isDateTime (chars : List Char) : Bool :=
  isDate chars || isTime chars ||
    match chars.drop 10 with
    | c :: time => (c = 'T' || c = 't') && isDate (chars.take 10) && isOffsetTime time
    | [] => false

end AgeFile.Toml
