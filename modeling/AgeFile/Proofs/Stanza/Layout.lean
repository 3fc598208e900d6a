import AgeFile.Proofs.Stanza.Body
import Mathlib.Algebra.GroupWithZero.Nat

/-!
# The lines that a stanza is written in

What is written for a stanza is said here without reading it again. Read `Wrapping` first: it says
how many lines a text is wrapped into, and how long each of them is. `appendTo_layout` puts the
lines of a stanza together, and `length_appendTo` counts their bytes.
-/

namespace AgeFile.Stanza

/-- Lines that a text is wrapped into: all but the last are full, and the last one takes what is
left of the text, which may be nothing. -/
structure Wrapping (text : Bytes) (lines : List Bytes) : Prop where
  flatten_eq : lines.flatten = text
  length_eq : lines.length = text.length / 64 + 1
  full : ∀ line ∈ lines.dropLast, line.length = 64
  last : ∀ line ∈ lines.getLast?, line.length = text.length % 64

variable {text line : Bytes} {lines : List Bytes}

/-- A text that does not fill a line is wrapped into one. -/
theorem Wrapping.of_short (h : text.length < 64) : Wrapping text [text] where
  flatten_eq := List.flatten_singleton
  length_eq := by rw [Nat.div_eq_of_lt h, List.length_singleton]
  full := by simp
  last := by simp [Nat.mod_eq_of_lt h]

/-- A full line comes before the lines of the text behind it. -/
theorem Wrapping.cons (hline : line.length = 64) (h : Wrapping text lines) :
    Wrapping (line ++ text) (line :: lines) := by
  have hne : lines ≠ [] := List.length_pos_iff.mp (by rw [h.length_eq]; omega)
  refine ⟨?_, ?_, ?_, ?_⟩
  · rw [List.flatten_cons, h.flatten_eq]
  · rw [List.length_cons, h.length_eq, List.length_append, hline]
    omega
  · rw [List.dropLast_cons_of_ne_nil hne]
    exact List.forall_mem_cons.mpr ⟨hline, h.full⟩
  · rw [List.getLast?_cons_of_ne_nil hne, List.length_append, hline, Nat.add_mod_left]
    exact h.last

/-- A text is written in the lines that it is wrapped into, each with a line feed behind it. -/
theorem exists_wrapping (text : Bytes) :
    ∃ lines, Wrapping text lines ∧ wrapped text = lines.flatMap fun line => line ++ [lineFeed] := by
  -- Induction on the text: it loses its first line.
  induction hlen : text.length using Nat.strongRecOn generalizing text with
  | ind n ih =>
      by_cases hshort : text.length < 64
      · refine ⟨[text], Wrapping.of_short hshort, ?_⟩
        rw [wrapped_of_short hshort, List.flatMap_singleton]
      · have htake : (text.take 64).length = 64 := by
          rw [List.length_take]
          omega
        obtain ⟨lines, hlines, hwritten⟩ :=
          ih (text.drop 64).length (by rw [List.length_drop]; omega) (text.drop 64) rfl
        have hcons := Wrapping.cons htake hlines
        have hfirst : wrapped (text.take 64 ++ text.drop 64) = _ := wrapped_append htake
        rw [List.take_append_drop] at hcons hfirst
        exact ⟨text.take 64 :: lines, hcons, by rw [hfirst, hwritten, List.flatMap_cons]⟩

/-- A text that fills its last line has an empty line behind it. -/
example : Wrapping (List.replicate 64 0) [List.replicate 64 0, []] :=
  ⟨by decide, by decide, by decide, by decide⟩

/-- The words of a stanza line take their own bytes and one for each of them. -/
theorem wordsLength_eq_sum (words : List Token) :
    wordsLength words = (words.map fun word => 1 + word.bytes.length).sum :=
  List.foldr_map.symm

/-- A stanza is written behind what was there: its line, and the lines of its body, none of which
has a line feed within it. -/
theorem appendTo_layout (buffer : Bytes) (stanza : Stanza) :
    ∃ lines, Wrapping (Base64.encode stanza.body) lines ∧ (∀ line ∈ lines, lineFeed ∉ line) ∧
      appendTo buffer stanza = buffer ++
        (ascii "->" ++ (stanza.tag :: stanza.args).flatMap (fun token => space :: token.bytes) ++
          [lineFeed] ++ lines.flatMap fun line => line ++ [lineFeed]) := by
  obtain ⟨lines, hlines, hwritten⟩ := exists_wrapping (Base64.encode stanza.body)
  refine ⟨lines, hlines, ?_, ?_⟩
  · intro line hline hfeed
    have hmem : lineFeed ∈ lines.flatten := List.mem_flatten_of_mem hline hfeed
    rw [hlines.flatten_eq] at hmem
    exact Base64.lineFeed_notMem_encode stanza.body hmem
  · rw [appendTo, encode, encodeBody_eq, hwritten]
    rfl

/-- The bytes that are written for a stanza, in number. -/
theorem length_appendTo (buffer : Bytes) (stanza : Stanza) :
    (appendTo buffer stanza).length = buffer.length +
      (4 + (4 * stanza.body.length + 2) / 3 + (4 * stanza.body.length + 2) / 3 / 64 +
        ((stanza.tag :: stanza.args).map fun token => 1 + token.bytes.length).sum) := by
  rw [appendTo, List.length_append, length_encode, wordsLength_eq_sum]

end AgeFile.Stanza
