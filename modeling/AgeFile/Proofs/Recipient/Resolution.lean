import AgeFile.Proofs.Header.Authentication
import AgeFile.Recipient.Resolution
import Mathlib.Data.List.Forall2

/-!
# Which file key is found

The readers here answer from the stanzas alone. Read `yieldsFirst_or_declines` first: either one of
the readers is the first to yield a key, or each of them has a cause not to. `resolveFileKey` turns
the one into the key and the other into an error, and `unlockHeader` checks the MAC under that key.
-/

namespace AgeFile

/-- The first of the readers that yields a key for the stanzas yields this one. -/
def YieldsFirst (stanzas : List Stanza) (readers : List (StanzaReader Id)) (key : FileKey) : Prop :=
  ∃ before reader after, readers = before ++ reader :: after ∧
    (∀ other ∈ before, ∀ found, (other stanzas).run ≠ .ok (some found)) ∧
    (reader stanzas).run = .ok (some key)

/-- A reader yields no key for the stanzas, for this cause. -/
inductive Declines (stanzas : List Stanza) (reader : StanzaReader Id) : Error → Prop
  /-- It fails. -/
  | failure {e : Error} : (reader stanzas).run = .error e → Declines stanzas reader e
  /-- No stanza is addressed to it. -/
  | silence : (reader stanzas).run = .ok none → Declines stanzas reader .noFileKey

variable {stanzas : List Stanza} {reader : StanzaReader Id} {readers : List (StanzaReader Id)}
  {key : FileKey} {cause : Error} {causes found : List Error}

/-- A reader yields a key or has a cause not to. -/
theorem yields_or_declines (stanzas : List Stanza) (reader : StanzaReader Id) :
    (∃ key, (reader stanzas).run = .ok (some key)) ∨ ∃ cause, Declines stanzas reader cause := by
  cases hanswer : (reader stanzas).run with
  | error e => exact Or.inr ⟨e, .failure hanswer⟩
  | ok answer =>
      cases answer with
      | none => exact Or.inr ⟨_, .silence hanswer⟩
      | some key => exact Or.inl ⟨key, rfl⟩

/-- A reader that has a cause not to yield a key yields none. -/
theorem Declines.not_yields (h : Declines stanzas reader cause) (key : FileKey) :
    (reader stanzas).run ≠ .ok (some key) := by
  intro hyields
  cases h with
  | failure herror => exact absurd (herror.symm.trans hyields) (by simp)
  | silence hnone => exact absurd (hnone.symm.trans hyields) (by simp)

/-- A reader that yields no key changes nothing for those after it. -/
theorem YieldsFirst.cons (hdeclines : Declines stanzas reader cause)
    (h : YieldsFirst stanzas readers key) : YieldsFirst stanzas (reader :: readers) key := by
  obtain ⟨before, first, after, rfl, hbefore, hyields⟩ := h
  refine ⟨reader :: before, first, after, rfl, ?_, hyields⟩
  intro other hother
  rcases List.mem_cons.mp hother with rfl | hmem
  · exact hdeclines.not_yields
  · exact hbefore other hmem

/-- Some reader is the first to yield a key, or each of them has a cause not to. -/
theorem yieldsFirst_or_declines (stanzas : List Stanza) (readers : List (StanzaReader Id)) :
    (∃ key, YieldsFirst stanzas readers key) ∨
      ∃ causes, List.Forall₂ (Declines stanzas) readers causes := by
  induction readers with
  | nil => exact Or.inr ⟨[], .nil⟩
  | cons reader readers ih =>
      rcases yields_or_declines stanzas reader with ⟨key, hkey⟩ | ⟨cause, hcause⟩
      · exact Or.inl ⟨key, [], reader, readers, rfl, by simp, hkey⟩
      · rcases ih with ⟨key, hkey⟩ | ⟨causes, hcauses⟩
        · exact Or.inl ⟨key, hkey.cons hcause⟩
        · exact Or.inr ⟨cause :: causes, .cons hcause hcauses⟩

/-- The cause of a reader that yields no key is kept while the next reader is tried. -/
theorem tryReaders_of_declines (h : Declines stanzas reader cause) :
    tryReaders stanzas (reader :: readers) causes =
      tryReaders stanzas readers (cause :: causes) := by
  cases h with
  | failure herror =>
      have hanswer : reader stanzas = pure (.error cause) := herror
      rw [tryReaders, hanswer, pure_bind]
  | silence hnone =>
      have hanswer : reader stanzas = pure (.ok none) := hnone
      rw [tryReaders, hanswer, pure_bind]

/-- Trying readers finds the key that the first of them yields. -/
theorem tryReaders_of_yieldsFirst (h : YieldsFirst stanzas readers key) :
    tryReaders stanzas readers causes = pure (.ok key) := by
  obtain ⟨before, reader, after, rfl, hbefore, hyields⟩ := h
  -- Induction on the readers before it: what they add to the causes is dropped.
  induction before generalizing causes with
  | nil =>
      have hanswer : reader stanzas = pure (.ok (some key)) := hyields
      rw [List.nil_append, tryReaders, hanswer, pure_bind]
  | cons other before ih =>
      rcases yields_or_declines stanzas other with ⟨found, hfound⟩ | ⟨cause, hcause⟩
      · exact absurd hfound (hbefore other List.mem_cons_self found)
      · rw [List.cons_append, tryReaders_of_declines hcause]
        exact ih fun reader hmem => hbefore reader (List.mem_cons_of_mem _ hmem)

/-- Trying readers of which none yields a key collects their causes in order. -/
theorem tryReaders_of_declines_all (h : List.Forall₂ (Declines stanzas) readers found) :
    tryReaders stanzas readers causes = pure (.error (causes.reverse ++ found)) := by
  induction h generalizing causes with
  | nil => rw [tryReaders, List.append_nil]
  | cons hcause _ ih =>
      rw [tryReaders_of_declines hcause, ih, List.reverse_cons, List.append_assoc,
        List.singleton_append]

/-! ## Unlocking a header -/

variable {header : Header}

/-- When no reader yields a key, a header stays locked for the causes of all readers. -/
theorem unlockHeader_of_declines (h : List.Forall₂ (Declines header.stanzas) readers causes) :
    (unlockHeader header readers).run = .error (Error.ofCauses causes) := by
  rw [unlockHeader, resolveFileKey, tryReaders_of_declines_all h]
  rfl

/-- The first key that a reader yields is the one that the MAC is checked under. -/
theorem unlockHeader_of_yieldsFirst (h : YieldsFirst header.stanzas readers key) :
    (unlockHeader header readers).run = (header.verifyMac key).map fun () => key := by
  rw [unlockHeader, resolveFileKey, tryReaders_of_yieldsFirst h]
  simp only [pure_bind]
  cases header.verifyMac key with
  | error e => rfl
  | ok done => rfl

end AgeFile
