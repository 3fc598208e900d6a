import AgeFile.Proofs.Header.Codec

/-!
# Where the covered bytes end

The bytes that a MAC covers say by themselves where they end and how they are divided. Read
`coveredBytes_append_iff` first: two lists of stanzas whose covered bytes agree, each followed by
anything, are the same list. So no MAC stands for two lists of stanzas.
-/

namespace AgeFile

namespace Stanza

/-- What a stanza is built from: the texts of its type and its arguments, and its body. -/
def parts (stanza : Stanza) : String × List String × Bytes :=
  (stanza.tag.text, stanza.args.map Token.text, stanza.body)

/-- Build a stanza from its parts. -/
def ofParts (parts : String × List String × Bytes) : Except Error Stanza :=
  create parts.1 parts.2.1 parts.2.2

/-- A stanza is built exactly from its parts. -/
theorem ofParts_eq_ok_iff {parts : String × List String × Bytes} {stanza : Stanza} :
    ofParts parts = .ok stanza ↔ stanza.parts = parts := by
  rw [ofParts, create_eq_ok_iff, Stanza.parts, Prod.ext_iff, Prod.ext_iff]

end Stanza

namespace Header

/-- Stanzas are determined by their covered bytes, whatever follows those. -/
theorem stanzas_eq_of_coveredBytes_append {first second : List Stanza} {rest other : Bytes}
    (h : coveredBytes first ++ rest = coveredBytes second ++ other) : first = second := by
  have hspans : ∀ (stanzas : List Stanza) (tail : Bytes), ∃ next,
      Cursor.Spans ⟨0, stanzas.flatMap Stanza.encode ++ terminator ++ tail⟩
        (stanzas.flatMap Stanza.encode ++ terminator) next :=
    fun _ tail => ⟨⟨_, tail⟩, rfl, rfl⟩
  have hbytes : first.flatMap Stanza.encode ++ terminator ++ rest =
      second.flatMap Stanza.encode ++ terminator ++ other := by
    simpa [coveredBytes] using h
  obtain ⟨next, hnext⟩ := hspans first rest
  obtain ⟨last, hlast⟩ := hspans second other
  rw [← hbytes] at hlast
  exact stanzas_unique hnext hlast

/-- Covered bytes that are followed by others are told apart from these. -/
theorem coveredBytes_append_iff {first second : List Stanza} {rest other : Bytes} :
    coveredBytes first ++ rest = coveredBytes second ++ other ↔
      first = second ∧ rest = other := by
  refine ⟨?_, ?_⟩
  · intro h
    obtain rfl := stanzas_eq_of_coveredBytes_append h
    exact ⟨rfl, List.append_cancel_left h⟩
  · intro h
    obtain ⟨rfl, rfl⟩ := h
    rfl

/-- Covered bytes are those of one list of stanzas only. -/
theorem coveredBytes_inj {first second : List Stanza} :
    coveredBytes first = coveredBytes second ↔ first = second := by
  have h : coveredBytes first ++ [] = coveredBytes second ++ [] ↔
      first = second ∧ ([] : Bytes) = [] := coveredBytes_append_iff
  rwa [List.append_nil, List.append_nil, eq_self_iff_true, and_true] at h

/-- The bytes that a MAC covers delimit themselves: whatever follows them, they determine the
stanzas and what follows. So different lists of stanzas have different covered bytes, of which none
begins with the other; and two ways to divide text and bytes into the types, arguments and bodies of
stanzas have the same covered bytes only if they are the same way. -/
theorem coveredBytes_selfDelimiting (first second : List Stanza) (rest other : Bytes) :
    (coveredBytes first ++ rest = coveredBytes second ++ other ↔ first = second ∧ rest = other) ∧
    (coveredBytes first <+: coveredBytes second ↔ first = second) ∧
    ∀ parts otherParts : List (String × List String × Bytes),
      parts.mapM Stanza.ofParts = .ok first → otherParts.mapM Stanza.ofParts = .ok second →
        (coveredBytes first = coveredBytes second ↔ parts = otherParts) := by
  refine ⟨coveredBytes_append_iff, ⟨?_, ?_⟩, ?_⟩
  · intro h
    obtain ⟨rest, hrest⟩ := h
    rw [← List.append_nil (coveredBytes second), coveredBytes_append_iff] at hrest
    exact hrest.1
  · intro h
    obtain rfl := h
    exact List.prefix_refl _
  · intro parts otherParts hparts hother
    obtain rfl := (mapM_eq_ok_iff fun _ _ => Stanza.ofParts_eq_ok_iff).mp hparts
    obtain rfl := (mapM_eq_ok_iff fun _ _ => Stanza.ofParts_eq_ok_iff).mp hother
    rw [coveredBytes_inj]
    refine ⟨fun h => by rw [h], fun h => ?_⟩
    -- Both lists were built from the same parts.
    have hsame := hparts.symm.trans (h ▸ hother)
    exact Except.ok.inj hsame

end Header

end AgeFile
