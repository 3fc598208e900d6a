/-!
# TOML tables

A TOML document is a sequence of statements that build one table: assignments to keys, and headers
that open a table or an element of an array of tables. No statement may define anything twice. This
module holds the values and the building of the table; `build` runs the statements.
-/

namespace AgeFile.Toml

/-- How a table came to be, which decides what may still be added to it. -/
inductive Origin where
  /-- A header of its own opened it. -/
  | header
  /-- It was named on the way to the table of a header. -/
  | implied
  /-- It was named on the way to a dotted key. -/
  | dotted
  /-- It was written in braces, complete. -/
  | inline
  deriving DecidableEq

/-- A value. Floats and dates are kept as they were written. -/
inductive Value where
  | text (value : String)
  | integer (value : Int)
  | float (literal : String)
  | boolean (value : Bool)
  | dateTime (literal : String)
  | array (items : List Value)
  | table (origin : Origin) (entries : List (String × Value))
  | tables (elements : List (List (String × Value)))

/-- The entries of a table. -/
abbrev Entries := List (String × Value)

/-- Put a value under a key, in the place of the one that stands there. -/
def put (key : String) (value : Value) : Entries → Entries
  | [] => [(key, value)]
  | (name, old) :: entries =>
      if name = key then (key, value) :: entries else (name, old) :: put key value entries

/-- Change the table at the end of a path, and return what `act` returns. Tables that are missing
are made; an array of tables stands for its last element. The path of a dotted key may not pass
through a table with a header, and no path passes through a table in braces or through another
value. -/
def change {α : Type} (dotted : Bool) (act : Origin → Entries → Option (α × Entries)) :
    (path : List String) → Origin → Entries → Option (α × Entries)
  | [], origin, entries => act origin entries
  | key :: path, _, entries =>
      match entries.lookup key with
      | none => do
          let origin := if dotted then .dotted else .implied
          let (result, inner) ← change dotted act path origin []
          return (result, put key (.table origin inner) entries)
      | some (.table origin inner) =>
          if origin = .inline ∨ (dotted ∧ origin = .header) then none
          else do
            let (result, inner) ← change dotted act path origin inner
            return (result, put key (.table origin inner) entries)
      | some (.tables elements) =>
          match elements.getLast? with
          | none => none
          | some last => do
              let (result, last) ← change dotted act path .header last
              return (result, put key (.tables (elements.dropLast ++ [last])) entries)
      | some _ => none

/-- A key: the tables on the way, and the name in the last of them. -/
structure KeyPath where
  path : List String
  name : String

/-- Assign a value to a key of a table. The name must be new, and a dotted key adds only to a table
that dotted keys have made. -/
def assign (key : KeyPath) (value : Value) (entries : Entries) : Option Entries :=
  (change true (fun origin inner =>
    if (origin = .dotted ↔ key.path = []) ∨ (inner.lookup key.name).isSome then none
    else some ((), put key.name value inner)) key.path .header entries).map (·.2)

/-- A statement of a document. -/
inductive Statement where
  /-- Assign a value to a key of the open table. -/
  | assign (key : KeyPath) (value : Value)
  /-- Open a table. -/
  | table (key : KeyPath)
  /-- Open a new element of an array of tables. -/
  | element (key : KeyPath)

/-- Which table is open: the document's own, one with a header, or a new element of an array. -/
inductive Place where
  | root
  | table (key : KeyPath)
  | element (key : KeyPath)

/-- A document half built: the tables closed, the open one, and its entries. -/
structure Draft where
  closed : Entries
  place : Place
  entries : Entries

/-- The document with its open table put in place. -/
def Draft.close (draft : Draft) : Option Entries :=
  match draft.place with
  | .root => some draft.entries
  | .table key =>
      (change false (fun _ parent => some ((), put key.name (.table .header draft.entries) parent))
        key.path .header draft.closed).map (·.2)
  | .element key =>
      (change false (fun _ parent =>
        match parent.lookup key.name with
        | none => some ((), put key.name (.tables [draft.entries]) parent)
        | some (.tables elements) =>
            some ((), put key.name (.tables (elements ++ [draft.entries])) parent)
        | some _ => none) key.path .header draft.closed).map (·.2)

/-- Run a statement. A header opens a table that is new, or that was only named on the way to
another; an element can be added to an array of tables only. -/
def Draft.run (draft : Draft) : Statement → Option Draft
  | .assign key value => do
      let entries ← Toml.assign key value draft.entries
      return { draft with entries }
  | .table key => do
      let closed ← draft.close
      let (entries, _) ← change false (fun _ parent =>
        match parent.lookup key.name with
        | none => some ([], parent)
        | some (.table .implied inner) => some (inner, parent)
        | some _ => none) key.path .header closed
      return ⟨closed, .table key, entries⟩
  | .element key => do
      let closed ← draft.close
      let _ ← change false (fun _ parent =>
        match parent.lookup key.name with
        | none | some (.tables _) => some ((), parent)
        | some _ => none) key.path .header closed
      return ⟨closed, .element key, []⟩

/-- The table that the statements of a document build, if they define nothing twice. -/
def build (statements : List Statement) : Option Entries := do
  let draft ← statements.foldlM Draft.run ⟨[], .root, []⟩
  draft.close

end AgeFile.Toml
