import AgeFile.Proofs.Header.Codec
import AgeFile.Proofs.Stanza.Checked

/-!
# Reading a header with checked accesses

The reader of a header once more, on offsets into the whole input: it takes the bytes of the MAC
line by their indices, and reads stanzas for as many rounds as it is given. Read `agrees_parse`
first: it comes to the header that is read, so no access is out of range and the rounds are enough.
`StanzaCursor` says at which offsets the rounds begin, and `StanzaCursor.bounds` that they move on
and stay in the input.
-/

namespace AgeFile.Checked

open Header (versionLine terminator)

/-- Read the version line. -/
def readVersion (input : Bytes) : Checked Nat := do
  let (line, next) ← readLine input 0
  if line = versionLine then return next
  else throw (.unsupportedVersion (Text.readLossy line))

/-- Read stanzas for as long as one begins, one in each round. `done` holds those read before, the
last one first. -/
def readStanzas (input : Bytes) (limits : HeaderLimits) :
    (rounds cursor : Nat) → (done : List Stanza) → Checked (List Stanza × Nat)
  | 0, _, _ => ExceptT.mk none
  | rounds + 1, cursor, done => do
      match ← readStanza input cursor with
      | none => return (done.reverse, cursor)
      | some (stanza, next) =>
          if done.length = limits.maxStanzas then throw (.tooManyStanzas limits.maxStanzas)
          else if limits.maxHeaderLength < next then throw (.headerTooLarge limits.maxHeaderLength)
          else readStanzas input limits rounds next (stanza :: done)

/-- Read the terminator. -/
def readTerminator (input : Bytes) (cursor : Nat) : Checked Nat := do
  let rest ← access (suffix? input cursor)
  if terminator.isPrefixOf rest then return cursor + terminator.length
  else
    match input[cursor]? with
    | none => throw (.truncated terminator.length 0)
    | some found => throw (.malformed cursor (.stanzaOrTerminator found))

/-- Read the MAC that follows the terminator. -/
def readMac (input : Bytes) (cursor : Nat) : Checked (Mac × Nat) := do
  let rest ← access (suffix? input cursor)
  if rest.length < Format.footerLength then throw .macNotFound
  else do
    let first ← access rest[0]?
    if first ≠ space then throw (.malformed cursor (.macSpace first))
    else do
      let last ← access rest[Format.footerLength - 1]?
      if last ≠ lineFeed then
        throw (.malformed (cursor + Format.footerLength - 1) (.macLineFeed last))
      else do
        let text ← access (slice? rest 1 (1 + Format.macTextLength))
        match Base64.decode text with
        | .error fault => throw (.malformed (cursor + 1) (.mac fault))
        | .ok bytes =>
            match FixedBytes.ofBytes? Format.macSize bytes with
            | none => throw (.malformed (cursor + 1) (.macLength bytes.length))
            | some mac => return (mac, cursor + Format.footerLength)

/-- The header at the beginning of an input, and the offset of the first byte after it. -/
def parse (input : Bytes) (limits : HeaderLimits) : Checked (Header × Nat) := do
  let cursor ← readVersion input
  let (stanzas, cursor) ← readStanzas input limits (input.length + 1) cursor []
  let cursor ← readTerminator input cursor
  let (mac, stop) ← readMac input cursor
  if limits.maxHeaderLength < stop then throw (.headerTooLarge limits.maxHeaderLength)
  else return (⟨stanzas, mac⟩, stop)

variable {cursor : Cursor} {input : Bytes} {limits : HeaderLimits} {rounds room : Nat}
  {done : List Stanza}

/-! ## The parts of a header -/

/-- The version line is read in agreement. -/
theorem agrees_readVersion (input : Bytes) :
    Agrees (readVersion input) (Header.readVersion (Cursor.start input)) Cursor.offset := by
  refine (agrees_readLine (Cursor.start_isIn input)).bind ?_
  intro found _
  obtain ⟨line, next⟩ := found
  dsimp only [atOffset]
  by_cases hversion : line = versionLine
  · rw [if_pos hversion, if_pos hversion]
    exact Agrees.pure Cursor.offset next
  · rw [if_neg hversion, if_neg hversion]
    exact Agrees.throw Cursor.offset _

/-- As many rounds as there are bytes left to read are more than enough for the stanzas. -/
theorem agrees_readStanzas (hin : cursor.IsIn input) (hrounds : cursor.rest.length < rounds)
    (hroom : room + done.length = limits.maxStanzas) :
    Agrees (readStanzas input limits rounds cursor.offset done)
      (Header.readStanzas limits cursor room done) atOffset := by
  -- Induction on the rounds: a stanza leaves fewer bytes, so there remain more rounds than bytes.
  induction rounds generalizing cursor room done with
  | zero => exact absurd hrounds (Nat.not_lt_zero _)
  | succ rounds ih =>
      have hread := agrees_readStanza hin
      rw [Agrees] at hread
      rw [readStanzas, hread]
      cases hstanza : Stanza.read cursor with
      | error e =>
          rw [Header.readStanzas_of_error hstanza]
          exact Agrees.throw atOffset e
      | ok found =>
          cases found with
          | none =>
              rw [Header.readStanzas_of_none hstanza]
              exact Agrees.pure atOffset (done.reverse, cursor)
          | some found =>
              obtain ⟨stanza, next⟩ := found
              have hstep := Stanza.length_rest_of_read hstanza
              have hnext : next.IsIn input := (Stanza.read_eq_ok_some_iff.mp hstanza).isIn hin
              rw [Header.readStanzas_of_some hstanza]
              show Agrees (if done.length = limits.maxStanzas then _ else _) _ _
              by_cases hfull : done.length = limits.maxStanzas
              · have hnone : room = 0 := by omega
                rw [if_pos hfull, if_pos hnone]
                exact Agrees.throw atOffset _
              · have hsome : room ≠ 0 := by omega
                rw [if_neg hfull, if_neg hsome]
                show Agrees (if limits.maxHeaderLength < next.offset then _ else _) _ _
                by_cases hlong : limits.maxHeaderLength < next.offset
                · rw [if_pos hlong, if_pos hlong]
                  exact Agrees.throw atOffset _
                · have hafter : next.rest.length < rounds := by omega
                  have hmore : room - 1 + (stanza :: done).length = limits.maxStanzas := by
                    rw [List.length_cons]
                    omega
                  rw [if_neg hlong, if_neg hlong]
                  exact ih hnext hafter hmore

/-- The terminator is read in agreement. -/
theorem agrees_readTerminator (hin : cursor.IsIn input) :
    Agrees (readTerminator input cursor.offset) (Header.readTerminator cursor) Cursor.offset := by
  unfold readTerminator Header.readTerminator
  rw [access_bind (suffix?_offset hin)]
  show Agrees (if cursor.startsWith terminator = true then _ else _) _ _
  by_cases hstarts : cursor.startsWith terminator = true
  · rw [if_pos hstarts, if_pos hstarts]
    exact Agrees.pure Cursor.offset (cursor.skip terminator.length)
  · have hbyte : input[cursor.offset]? = cursor.rest[0]? := (hin.getElem?_rest 0).symm
    rw [if_neg hstarts, if_neg hstarts, hbyte]
    cases cursor.rest with
    | nil => exact Agrees.throw Cursor.offset _
    | cons found rest => exact Agrees.throw Cursor.offset _

/-- The MAC is read in agreement. -/
theorem agrees_readMac (hin : cursor.IsIn input) :
    Agrees (readMac input cursor.offset) (Header.readMac cursor) atOffset := by
  unfold readMac
  rw [access_bind (suffix?_offset hin)]
  by_cases hshort : cursor.rest.length < Format.footerLength
  · rw [if_pos hshort, Header.readMac, if_pos hshort]
    exact Agrees.throw atOffset _
  · obtain ⟨first, text, last, tail, htext, hrest⟩ :=
      Header.exists_footer_parts (Nat.le_of_not_lt hshort)
    rw [if_neg hshort, Header.readMac_of_rest htext hrest]
    have hfirst : cursor.rest[0]? = some first := by
      rw [hrest]
      rfl
    have hlast : cursor.rest[Format.footerLength - 1]? = some last := by
      have hplace : Format.footerLength - 1 = (first :: text).length := by
        rw [List.length_cons, htext]
        rfl
      rw [hplace, hrest, List.getElem?_append_right (Nat.le_refl _), Nat.sub_self,
        List.getElem?_cons_zero]
    have hslice : slice? cursor.rest 1 (1 + Format.macTextLength) = some text := by
      have hpart := slice?_append [first] text (last :: tail)
      rwa [List.singleton_append, ← hrest, List.length_singleton, htext] at hpart
    rw [access_bind hfirst]
    by_cases hspace : first ≠ space
    · rw [if_pos hspace, if_pos hspace]
      exact Agrees.throw atOffset _
    rw [if_neg hspace, if_neg hspace, access_bind hlast]
    by_cases hfeed : last ≠ lineFeed
    · rw [if_pos hfeed, if_pos hfeed]
      exact Agrees.throw atOffset _
    rw [if_neg hfeed, if_neg hfeed, access_bind hslice]
    cases Base64.decode text with
    | error fault => exact Agrees.throw atOffset _
    | ok bytes =>
        dsimp only
        cases FixedBytes.ofBytes? Format.macSize bytes with
        | none => exact Agrees.throw atOffset _
        | some mac => exact Agrees.pure atOffset (mac, cursor.skip Format.footerLength)

/-! ## Whole headers -/

/-- A header is read in agreement. -/
theorem agrees_parse (input : Bytes) (limits : HeaderLimits) :
    Agrees (parse input limits) (Header.read limits (Cursor.start input)) atOffset := by
  refine (agrees_readVersion input).bind ?_
  intro first hversion
  have hfirst := (Header.readVersion_eq_ok_iff.mp hversion).isIn (Cursor.start_isIn input)
  have hlength := hfirst.offset_add
  refine (agrees_readStanzas hfirst (by omega) rfl).bind ?_
  intro found hstanzas
  obtain ⟨stanzas, second⟩ := found
  obtain ⟨read, -, hspans, -⟩ := Header.spans_of_readStanzas hstanzas
  have hsecond := hspans.isIn hfirst
  refine (agrees_readTerminator hsecond).bind ?_
  intro third hterminator
  have hthird := (Header.readTerminator_eq_ok_iff.mp hterminator).isIn hsecond
  refine (agrees_readMac hthird).bind ?_
  intro found _
  obtain ⟨mac, last⟩ := found
  dsimp only [atOffset]
  unfold Header.checkLength
  by_cases hlong : limits.maxHeaderLength < last.offset
  · rw [if_pos hlong, if_pos hlong]
    exact Agrees.throw atOffset _
  · rw [if_neg hlong, if_neg hlong]
    exact Agrees.pure atOffset ((⟨stanzas, mac⟩ : Header), last)

/-- The checked reader comes to what is read. -/
theorem parse_eq (input : Bytes) (limits : HeaderLimits) :
    parse input limits = some (Header.parse input limits) :=
  agrees_parse input limits

/-- From any offset the checked reader of a MAC comes to what is read there: to nothing beyond the
end of the input, and nowhere else. -/
theorem readMac_eq (input : Bytes) (offset : Nat) :
    readMac input offset = Header.parseMacAt? input offset := by
  refine eq_map_at? (fun _ => agrees_readMac) ?_ offset
  intro offset hlt
  rw [readMac, suffix?_of_lt hlt]
  rfl

/-! ## The rounds -/

/-- The offsets at which a round of reading stanzas begins, and how many stanzas were read before:
the first round begins behind the version line, and another one behind each stanza that the limits
allow. -/
inductive StanzaCursor (input : Bytes) (limits : HeaderLimits) : Nat → Nat → Prop
  /-- The version line is read. -/
  | first {cursor : Nat} (hversion : readVersion input = some (.ok cursor)) :
      StanzaCursor input limits 0 cursor
  /-- One more stanza is read. -/
  | next {count cursor stop : Nat} {stanza : Stanza} (h : StanzaCursor input limits count cursor)
      (hstanza : readStanza input cursor = some (.ok (some (stanza, stop))))
      (hcount : count ≠ limits.maxStanzas) (hlength : stop ≤ limits.maxHeaderLength) :
      StanzaCursor input limits (count + 1) stop

/-- A round begins at an offset in the input, at least six bytes behind the one before it. -/
theorem StanzaCursor.bounds {count cursor : Nat} (h : StanzaCursor input limits count cursor) :
    22 + 6 * count ≤ cursor ∧ cursor ≤ input.length := by
  induction h with
  | first hversion =>
      obtain ⟨next, hnext, rfl⟩ := (agrees_readVersion input).eq_ok_iff.mp hversion
      have hspans := Header.readVersion_eq_ok_iff.mp hnext
      have hoffset : next.offset = 22 := hspans.2
      exact ⟨by omega, (hspans.isIn (Cursor.start_isIn input)).offset_le⟩
  | next _ hstanza _ _ ih =>
      obtain ⟨hmoved, hend⟩ := readStanza_advances hstanza
      exact ⟨by omega, hend⟩

end AgeFile.Checked
