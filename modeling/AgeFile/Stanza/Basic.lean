import AgeFile.Base64
import AgeFile.Error
import AgeFile.Stanza.Token

/-!
# Stanzas

A stanza says to one recipient how to recover the file key: a type, arguments, and a body that only
the recipient's mechanism understands. This module holds the type, its construction from text, and
its written form; `length_encode` gives the number of bytes of that form.
-/

namespace AgeFile

/-- An entry of a header: a recipient type, its arguments, and an opaque body. -/
structure Stanza where
  tag : Token
  args : List Token
  body : Bytes
  deriving DecidableEq

namespace Stanza

/-- The bytes of the stanza marker. -/
def marker : Bytes := ascii Format.stanzaMarker

/-- The stanza marker takes two bytes. -/
theorem length_marker : marker.length = 2 := rfl

/-- Take a text as an argument; one that cannot be written is refused. -/
def argument (text : String) : Except Error Token :=
  match Token.ofString? text with
  | some token => .ok token
  | none => .error (.invalidStanza (.argument text))

/-- Build a stanza from text. The type is judged first and then the arguments in their order; the
first that cannot be written is named. -/
def create (tag : String) (args : List String) (body : Bytes) : Except Error Stanza :=
  match Token.ofString? tag with
  | none => .error (.invalidStanza (.tag tag))
  | some tag => do
      let args ← args.mapM argument
      return ⟨tag, args, body⟩

/-- The first line of a stanza: the marker, and a space before each of the words. -/
def encodeLine (stanza : Stanza) : Bytes :=
  marker ++ (stanza.tag :: stanza.args).flatMap (fun token => space :: token.bytes) ++ [lineFeed]

/-- A body in lines of 64 characters. Only a shorter line ends a body, so an empty line follows a
body whose last line is full, and one without any text. -/
def encodeBody (body : Bytes) : Bytes :=
  let text := Base64.encode body
  (pieces Format.bodyLineLength text).flatMap (fun line => line ++ [lineFeed]) ++
    if text.length % Format.bodyLineLength = 0 then [lineFeed] else []

/-- A stanza in its written form. -/
def encode (stanza : Stanza) : Bytes :=
  stanza.encodeLine ++ encodeBody stanza.body

/-- Write a stanza behind the bytes that a buffer holds already. -/
def appendTo (buffer : Bytes) (stanza : Stanza) : Bytes :=
  buffer ++ stanza.encode

/-- The number of bytes of words with a space before each of them. -/
def wordsLength (words : List Token) : Nat :=
  words.foldr (fun word length => 1 + word.bytes.length + length) 0

/-- The number of bytes of a stanza line. -/
theorem length_encodeLine (stanza : Stanza) :
    stanza.encodeLine.length = 3 + wordsLength (stanza.tag :: stanza.args) := by
  have hwords : ∀ words : List Token,
      (words.flatMap fun token => space :: token.bytes).length = wordsLength words := by
    intro words
    induction words with
    | nil => rfl
    | cons word words ih =>
        rw [List.flatMap_cons, List.length_append, ih, List.length_cons, wordsLength, wordsLength,
          List.foldr_cons, Nat.add_comm 1]
  rw [encodeLine, List.length_append, List.length_append, hwords, List.length_singleton,
    length_marker]
  omega

/-- A body has as many characters as its base64 text, and one line feed for each line. -/
theorem length_encodeBody (body : Bytes) :
    (encodeBody body).length =
      (4 * body.length + 2) / 3 + (4 * body.length + 2) / 3 / Format.bodyLineLength + 1 := by
  have hpos : 0 < Format.bodyLineLength := by decide
  have hline : Format.bodyLineLength = 64 := rfl
  simp only [encodeBody, List.length_append]
  rw [length_flatMap_append, flatten_pieces _ hpos, length_pieces _ hpos, Base64.length_encode]
  by_cases h : (4 * body.length + 2) / 3 % Format.bodyLineLength = 0
  · rw [if_pos h, List.length_singleton, hline]
    rw [hline] at h
    omega
  · rw [if_neg h, List.length_nil, hline]
    rw [hline] at h
    omega

/-- The number of bytes of a stanza in its written form. -/
theorem length_encode (stanza : Stanza) :
    stanza.encode.length =
      4 + (4 * stanza.body.length + 2) / 3 +
        (4 * stanza.body.length + 2) / 3 / Format.bodyLineLength +
        wordsLength (stanza.tag :: stanza.args) := by
  rw [encode, List.length_append, length_encodeLine, length_encodeBody]
  omega

end Stanza

end AgeFile
