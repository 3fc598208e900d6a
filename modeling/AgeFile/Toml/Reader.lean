import AgeFile.Toml.DateTime
import AgeFile.Toml.Table
import AgeFile.Toml.Text

/-!
# Reading TOML

A document is read into statements and the statements build its table. Whatever is no TOML 1.0
document has no table. Values are nested, and keys dotted, fewer than eighty deep.
-/

namespace AgeFile.Toml

/-- How deep values may be nested and how many parts a key may have. -/
def depthLimit : Nat := 79

/-- Leave out blanks. -/
def skipBlanks (chars : List Char) : List Char :=
  chars.dropWhile isBlank

/-- Whether a character can stand in a key without quotes. -/
def isBareKeyChar (c : Char) : Bool :=
  c.isAlphanum || c = '_' || c = '-'

/-- One part of a key: a string of one line, or a word. -/
def readKeyPart : List Char → Option (String × List Char)
  | '"' :: rest => readBasic (rest.length + 1) [] rest
  | '\'' :: rest => readLiteral [] rest
  | chars =>
      let word := chars.takeWhile isBareKeyChar
      if word = [] then none else some (String.ofList word, chars.dropWhile isBareKeyChar)

/-- A key of at most `most` parts, with dots between them and blanks around each. -/
def readKeyParts : (most : Nat) → List Char → Option (KeyPath × List Char)
  | 0, _ => none
  | most + 1, chars =>
      match readKeyPart (skipBlanks chars) with
      | none => none
      | some (part, rest) =>
          match skipBlanks rest with
          | '.' :: rest =>
              match readKeyParts most rest with
              | none => none
              | some (key, rest) => some (⟨part :: key.path, key.name⟩, rest)
          | rest => some (⟨[], part⟩, rest)

/-- A key, the blanks around it, and what follows. -/
def readKey (chars : List Char) : Option (KeyPath × List Char) :=
  readKeyParts depthLimit chars

/-- Whether a character can stand in a number, a date or a word. -/
def isScalarChar (c : Char) : Bool :=
  c.isAlphanum || c = '+' || c = '-' || c = '_' || c = '.' || c = ':'

/-- The truth value, integer, float or date that a run of characters spells. -/
def scalar? (run : List Char) : Option Value :=
  if run = "true".toList then some (.boolean true)
  else if run = "false".toList then some (.boolean false)
  else
    match integer? run with
    | some n => some (.integer n)
    | none =>
        if isFloat run then some (.float (String.ofList run))
        else if isDateTime run then some (.dateTime (String.ofList run))
        else none

/-- The value without quotes or brackets that begins here. A space may stand between a date and its
time. -/
def readScalar (chars : List Char) : Option (Value × List Char) :=
  let run := chars.takeWhile isScalarChar
  let rest := chars.dropWhile isScalarChar
  match rest with
  | ' ' :: after =>
      let time := after.takeWhile isScalarChar
      if isDate run && isOffsetTime time then
        some (.dateTime (String.ofList (run ++ ' ' :: time)), after.dropWhile isScalarChar)
      else (scalar? run).map (·, rest)
  | _ => (scalar? run).map (·, rest)

/-- Leave out blanks, line breaks and comments, each of which a line break ends; `inComment` says
whether a comment has begun. Nothing else may hold a carriage return. -/
def skipFiller : (inComment : Bool) → List Char → Option (List Char)
  | _, '\n' :: rest => skipFiller false rest
  | _, '\r' :: '\n' :: rest => skipFiller false rest
  | false, ' ' :: rest => skipFiller false rest
  | false, '\t' :: rest => skipFiller false rest
  | false, '#' :: rest => skipFiller true rest
  | false, '\r' :: _ => none
  | false, rest => some rest
  | true, c :: rest => if isCommentChar c then skipFiller true rest else none
  | true, [] => none

/-- The items of an array up to its closing bracket, at most `most` of them. A comma may follow the
last one. -/
def readItems (item : List Char → Option (Value × List Char)) :
    (most : Nat) → List Char → Option (List Value × List Char)
  | 0, _ => none
  | most + 1, chars => do
      let chars ← skipFiller false chars
      match chars with
      | ']' :: rest => return ([], rest)
      | chars =>
          let (value, rest) ← item chars
          match ← skipFiller false rest with
          | ',' :: rest =>
              let (values, rest) ← readItems item most rest
              return (value :: values, rest)
          | ']' :: rest => return ([value], rest)
          | _ => none

/-- A key, an equals sign and a value. -/
def readPair (value : List Char → Option (Value × List Char)) (chars : List Char) :
    Option ((KeyPath × Value) × List Char) :=
  match readKey chars with
  | some (key, '=' :: rest) => (value (skipBlanks rest)).map fun (v, rest) => ((key, v), rest)
  | _ => none

/-- The entries of a table up to its closing brace, at most `most` of them; a comma stands between
any two. -/
def readPairs (value : List Char → Option (Value × List Char)) :
    (most : Nat) → Entries → List Char → Option (Entries × List Char)
  | 0, _, _ => none
  | most + 1, entries, chars => do
      let ((key, v), rest) ← readPair value chars
      let entries ← assign key v entries
      match skipBlanks rest with
      | ',' :: rest => readPairs value most entries rest
      | '\x7d' :: rest => return (entries, rest)
      | _ => none

/-- The value that begins here and what follows it; `depth` bounds how deep it is nested. -/
def readValue : (depth : Nat) → List Char → Option (Value × List Char)
  | 0, '[' :: _ => none
  | 0, '\x7b' :: _ => none
  | depth + 1, '[' :: rest =>
      (readItems (readValue depth) (rest.length + 1) rest).map fun (items, rest) =>
        (.array items, rest)
  | depth + 1, '\x7b' :: rest =>
      match skipBlanks rest with
      | '\x7d' :: rest => some (.table .inline [], rest)
      | inner =>
          (readPairs (readValue depth) (inner.length + 1) [] inner).map fun (entries, rest) =>
            (.table .inline entries, rest)
  | _, '"' :: rest => (readText ('"' :: rest)).map fun (text, rest) => (.text text, rest)
  | _, '\'' :: rest => (readText ('\'' :: rest)).map fun (text, rest) => (.text text, rest)
  | _, chars => readScalar chars

/-- What follows the end of a line: blanks, perhaps a comment, and a line break or the end of the
document. -/
def readLineEnd (chars : List Char) : Option (List Char) :=
  let rest := match skipBlanks chars with
    | '#' :: comment => comment.dropWhile isCommentChar
    | rest => rest
  match rest with
  | [] => some []
  | rest => afterNewline? rest

/-- The statement on the line that begins here, and what follows its line. -/
def readStatement : List Char → Option (Statement × List Char)
  | '[' :: '[' :: chars =>
      match readKey chars with
      | some (key, ']' :: ']' :: rest) => (readLineEnd rest).map (.element key, ·)
      | _ => none
  | '[' :: chars =>
      match readKey chars with
      | some (key, ']' :: rest) => (readLineEnd rest).map (.table key, ·)
      | _ => none
  | chars => do
      let ((key, value), rest) ← readPair (readValue depthLimit) chars
      let rest ← readLineEnd rest
      return (.assign key value, rest)

/-- The statements of a document of at most `most` lines; `done` holds those before, the last one
first. -/
def readStatements : (most : Nat) → (done : List Statement) → List Char → Option (List Statement)
  | 0, _, _ => none
  | most + 1, done, chars =>
      match skipBlanks chars with
      | [] => some done.reverse
      | c :: rest =>
          if c = '#' ∨ c = '\n' ∨ c = '\r' then
            match readLineEnd (c :: rest) with
            | some rest => readStatements most done rest
            | none => none
          else
            match readStatement (c :: rest) with
            | some (statement, rest) => readStatements most (statement :: done) rest
            | none => none

/-- The table of a document. A byte order mark may stand in front. -/
def read (text : String) : Option Entries := do
  let chars := match text.toList with
    | '\ufeff' :: chars => chars
    | chars => chars
  let statements ← readStatements (chars.length + 1) [] chars
  build statements

end AgeFile.Toml
