import AgeFile.Header.Basic
import AgeFile.Limits
import AgeFile.Stanza.Reader
import AgeFile.Text.Lossy

/-!
# Reading a header

A header is read in one pass from the front: the version line, stanzas for as long as one begins,
the terminator, and the MAC. The limits are checked after each stanza and at the end.
-/

namespace AgeFile.Header

/-- Read the MAC that follows the terminator, and the position after its line. -/
def readMac (cursor : Cursor) : Except Error (Mac × Cursor) :=
  if cursor.rest.length < Format.footerLength then .error .macNotFound
  else
    let first := cursor.rest.getD 0 0
    let last := cursor.rest.getD (Format.footerLength - 1) 0
    if first ≠ space then .error (.malformed cursor.offset (.macSpace first))
    else if last ≠ lineFeed then
      .error (.malformed (cursor.offset + Format.footerLength - 1) (.macLineFeed last))
    else
      match Base64.decode ((cursor.rest.drop 1).take Format.macTextLength) with
      | .error fault => .error (.malformed (cursor.offset + 1) (.mac fault))
      | .ok bytes =>
          match FixedBytes.ofBytes? Format.macSize bytes with
          | none => .error (.malformed (cursor.offset + 1) (.macLength bytes.length))
          | some mac => .ok (mac, cursor.skip Format.footerLength)

/-- The MAC that follows `offset` bytes of an input and the offset of its line's end. There is no
answer for an offset beyond the end of the input. -/
def parseMacAt? (input : Bytes) (offset : Nat) : Option (Except Error (Mac × Nat)) :=
  (Cursor.at? input offset).map fun cursor =>
    (readMac cursor).map fun (mac, next) => (mac, next.offset)

/-- Refuse a position that lies beyond the longest header allowed. -/
def checkLength (limits : HeaderLimits) (cursor : Cursor) : Except Error Unit :=
  if limits.maxHeaderLength < cursor.offset then .error (.headerTooLarge limits.maxHeaderLength)
  else .ok ()

/-- Read stanzas for as long as one begins, and return the position after them. `room` is how many
more are allowed, and `done` holds those read before, the last one first. -/
def readStanzas (limits : HeaderLimits) (cursor : Cursor) (room : Nat) (done : List Stanza) :
    Except Error (List Stanza × Cursor) :=
  match h : Stanza.read cursor with
  | .error e => .error e
  | .ok none => .ok (done.reverse, cursor)
  | .ok (some (stanza, next)) =>
      if room = 0 then .error (.tooManyStanzas limits.maxStanzas)
      else
        match checkLength limits next with
        | .error e => .error e
        | .ok () =>
            have : next.rest.length < cursor.rest.length := Stanza.length_rest_of_read h
            readStanzas limits next (room - 1) (stanza :: done)
termination_by cursor.rest.length

/-- Read the version line. Another line is shown in the error, as far as it is text. -/
def readVersion (cursor : Cursor) : Except Error Cursor := do
  let (line, next) ← cursor.readLine
  if line = versionLine then return next
  throw (.unsupportedVersion (Text.readLossy line))

/-- Read the terminator. -/
def readTerminator (cursor : Cursor) : Except Error Cursor :=
  if cursor.startsWith terminator then .ok (cursor.skip terminator.length)
  else
    match cursor.rest with
    | [] => .error (.truncated terminator.length 0)
    | found :: _ => .error (.malformed cursor.offset (.stanzaOrTerminator found))

/-- Read a header, and the position after it. -/
def read (limits : HeaderLimits) (cursor : Cursor) : Except Error (Header × Cursor) := do
  let next ← readVersion cursor
  let (stanzas, next) ← readStanzas limits next limits.maxStanzas []
  let next ← readTerminator next
  let (mac, next) ← readMac next
  checkLength limits next
  return (⟨stanzas, mac⟩, next)

/-- The header at the beginning of an input, and the offset of the first byte after it. -/
def parse (input : Bytes) (limits : HeaderLimits := {}) : Except Error (Header × Nat) :=
  (read limits (Cursor.start input)).map fun (header, next) => (header, next.offset)

end AgeFile.Header
