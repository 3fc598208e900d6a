import AgeFile.Toml.Number

/-!
# TOML strings

Strings stand between double quotes, where a backslash escapes, or between single quotes, where
nothing does. Three quotes make a string that may go over several lines.
-/

namespace AgeFile.Toml

/-- Whether a character can stand in a comment: all but controls, of which the tab is allowed. -/
def isCommentChar (c : Char) : Bool :=
  c = '\t' || (0x20 ≤ c.toNat && c.toNat ≠ 0x7f)

/-- Whether a character stands for itself between double quotes. -/
def isBasicChar (c : Char) : Bool :=
  isCommentChar c && c ≠ '"' && c ≠ '\\'

/-- Whether a character can stand between single quotes. -/
def isLiteralChar (c : Char) : Bool :=
  isCommentChar c && c ≠ '\''

/-- Whether a character is a blank. -/
def isBlank (c : Char) : Bool :=
  c = ' ' || c = '\t'

/-- What a letter after a backslash stands for. -/
def escape? : Char → Option Char
  | 'b' => some '\x08'
  | 't' => some '\t'
  | 'n' => some '\n'
  | 'f' => some '\x0c'
  | 'r' => some '\r'
  | '"' => some '"'
  | '\\' => some '\\'
  | _ => none

/-- The character whose code point hexadecimal digits spell. -/
def codePoint? (digits : List Char) : Option Char := do
  let values ← digits.mapM (digitValue? 16)
  let n := ofDigits 16 values
  if n.isValidChar then some (Char.ofNat n) else none

/-- The character that an escape stands for, and what follows it; the backslash has been read. -/
def readEscape : List Char → Option (Char × List Char)
  | 'u' :: a :: b :: c :: d :: rest => (codePoint? [a, b, c, d]).map (·, rest)
  | 'U' :: a :: b :: c :: d :: e :: f :: g :: h :: rest =>
      (codePoint? [a, b, c, d, e, f, g, h]).map (·, rest)
  | c :: rest => (escape? c).map (·, rest)
  | [] => none

/-- Read a string up to its double quote. `done` holds the characters before, the last one first;
each of at most `steps` rounds reads one character. -/
def readBasic : (steps : Nat) → (done : List Char) → List Char → Option (String × List Char)
  | 0, _, _ => none
  | _ + 1, _, [] => none
  | _ + 1, done, '"' :: rest => some (String.ofList done.reverse, rest)
  | steps + 1, done, '\\' :: rest =>
      match readEscape rest with
      | some (c, rest) => readBasic steps (c :: done) rest
      | none => none
  | steps + 1, done, c :: rest =>
      if isBasicChar c then readBasic steps (c :: done) rest else none

/-- Read a string up to its single quote. -/
def readLiteral : (done : List Char) → List Char → Option (String × List Char)
  | _, [] => none
  | done, '\'' :: rest => some (String.ofList done.reverse, rest)
  | done, c :: rest => if isLiteralChar c then readLiteral (c :: done) rest else none

/-- What follows a line break; there is none after other characters. -/
def afterNewline? : List Char → Option (List Char)
  | '\n' :: rest => some rest
  | '\r' :: '\n' :: rest => some rest
  | _ => none

/-- Leave out blanks and line breaks. -/
def skipSpace : List Char → List Char
  | ' ' :: rest => skipSpace rest
  | '\t' :: rest => skipSpace rest
  | '\n' :: rest => skipSpace rest
  | '\r' :: '\n' :: rest => skipSpace rest
  | rest => rest

/-- Read a string of several lines up to its three double quotes. One or two quotes may stand before
the last three. A backslash at the end of a line leaves out the line break and the space after
it. -/
def readBasicLines : (steps : Nat) → (done : List Char) → List Char → Option (String × List Char)
  | 0, _, _ => none
  | _ + 1, _, [] => none
  | _ + 1, done, '"' :: '"' :: '"' :: '"' :: '"' :: rest =>
      some (String.ofList ('"' :: '"' :: done).reverse, rest)
  | _ + 1, done, '"' :: '"' :: '"' :: '"' :: rest =>
      some (String.ofList ('"' :: done).reverse, rest)
  | _ + 1, done, '"' :: '"' :: '"' :: rest => some (String.ofList done.reverse, rest)
  | steps + 1, done, '"' :: rest => readBasicLines steps ('"' :: done) rest
  | steps + 1, done, '\\' :: rest =>
      match afterNewline? (rest.dropWhile isBlank) with
      | some rest => readBasicLines steps done (skipSpace rest)
      | none =>
          match readEscape rest with
          | some (c, rest) => readBasicLines steps (c :: done) rest
          | none => none
  | steps + 1, done, c :: rest =>
      match afterNewline? (c :: rest) with
      | some rest => readBasicLines steps ('\n' :: done) rest
      | none => if isBasicChar c then readBasicLines steps (c :: done) rest else none

/-- Read a string of several lines up to its three single quotes. One or two quotes may stand before
the last three. -/
def readLiteralLines : (done : List Char) → List Char → Option (String × List Char)
  | _, [] => none
  | done, '\'' :: '\'' :: '\'' :: '\'' :: '\'' :: rest =>
      some (String.ofList ('\'' :: '\'' :: done).reverse, rest)
  | done, '\'' :: '\'' :: '\'' :: '\'' :: rest => some (String.ofList ('\'' :: done).reverse, rest)
  | done, '\'' :: '\'' :: '\'' :: rest => some (String.ofList done.reverse, rest)
  | done, '\'' :: rest => readLiteralLines ('\'' :: done) rest
  | done, '\n' :: rest => readLiteralLines ('\n' :: done) rest
  | done, '\r' :: '\n' :: rest => readLiteralLines ('\n' :: done) rest
  | done, c :: rest => if isLiteralChar c then readLiteralLines (c :: done) rest else none

/-- Leave out a line break that stands at the very beginning. -/
def skipNewline (chars : List Char) : List Char :=
  (afterNewline? chars).getD chars

/-- The string that begins here, and what follows it; nothing where no quote stands. -/
def readText : List Char → Option (String × List Char)
  | '"' :: '"' :: '"' :: rest => readBasicLines (rest.length + 1) [] (skipNewline rest)
  | '"' :: rest => readBasic (rest.length + 1) [] rest
  | '\'' :: '\'' :: '\'' :: rest => readLiteralLines [] (skipNewline rest)
  | '\'' :: rest => readLiteral [] rest
  | _ => none

end AgeFile.Toml
