/-!
# Documents

A document of settings is a tree of tables. It is put together from statements in the order in which
they stand in a text: a header opens a table, and every other statement gives a key of the open
table a value. A key may be a path, which leads through tables of its own.

A table knows how it came about, because that decides what may be added to it. No key may be given
twice, and no table may be opened twice.
-/

namespace NetOnChip

/-- How a table came about. -/
inductive Origin where
  /-- It was written as a value and is complete. -/
  | inline
  /-- A header opened it. -/
  | header
  /-- A header opened a table inside it. -/
  | implied
  /-- A path of keys leads through it. -/
  | dotted
  deriving DecidableEq, Repr

/-- The value of a key. -/
inductive Setting where
  /-- A text. -/
  | text (s : String)
  /-- A whole number. -/
  | whole (n : Int)
  /-- A number with a fraction or an exponent, or one that is not finite. -/
  | real (a : Float)
  /-- A truth value. -/
  | truth (b : Bool)
  /-- A date, a time, or both. -/
  | moment
  /-- A list that was written as a value. -/
  | list (items : List Setting)
  /-- A table. -/
  | table (origin : Origin) (entries : List (String × Setting))
  /-- The tables that headers for lists of tables opened, the last one first. -/
  | tables (items : List (List (String × Setting)))

/-- The keys and values of a table. -/
abbrev Entries := List (String × Setting)

namespace Entries

/-- Gives a key a value in place of the one that it has. -/
def replace (key : String) (value : Setting) (e : Entries) : Entries :=
  e.map fun (k, v) ↦ if k = key then (k, value) else (k, v)

/-- Changes the table that a path leads to. Tables that are missing on the way are created. With
`dotted` the path consists of keys, and it must not lead through tables that a header opened. -/
def change (dotted : Bool) (finish : Origin → Entries → Option Entries) :
    List String → Origin → Entries → Option Entries
  | [], origin, e => finish origin e
  | key :: path, _, e =>
    let fresh : Origin := if dotted then .dotted else .implied
    match e.lookup key with
    | none => do
      let inner ← change dotted finish path fresh []
      return e ++ [(key, .table fresh inner)]
    | some (.table origin inner) =>
      if origin = .inline ∨ (dotted ∧ origin = .header) then
        none
      else do
        let inner ← change dotted finish path origin inner
        return e.replace key (.table origin inner)
    | some (.tables (inner :: others)) => do
      let inner ← change dotted finish path .header inner
      return e.replace key (.tables (inner :: others))
    | some _ => none

/-- Gives a key a value that it has not got yet. The table must have come about in the same way as
the key: a path of keys ends in a table that only such paths lead to. -/
def insert (viaPath : Bool) (key : String) (value : Setting) (origin : Origin) (e : Entries) :
    Option Entries :=
  if decide (origin = .dotted) ≠ viaPath ∨ (e.lookup key).isSome then
    none
  else
    some (e ++ [(key, value)])

/-- Gives the key at the end of a path a value, in a table that came about in some way. -/
def give (path : List String) (key : String) (value : Setting) (origin : Origin) (e : Entries) :
    Option Entries :=
  change true (insert (!path.isEmpty) key value) path origin e

/-- Opens a table that no header opened before. -/
def openTable (key : String) (e : Entries) : Option Entries :=
  match e.lookup key with
  | none => some (e ++ [(key, .table .header [])])
  | some (.table .implied inner) => some (e.replace key (.table .header inner))
  | some _ => none

/-- Opens another table of a list of tables. -/
def openAnother (key : String) (e : Entries) : Option Entries :=
  match e.lookup key with
  | none => some (e ++ [(key, .tables [[]])])
  | some (.tables items) => some (e.replace key (.tables ([] :: items)))
  | some _ => none

end Entries

/-- A statement of a document. Paths are given without their last key. -/
inductive Statement where
  /-- Opens a table. -/
  | openTable (path : List String) (key : String)
  /-- Opens another table of a list of tables. -/
  | openAnother (path : List String) (key : String)
  /-- Gives a key of the open table a value. -/
  | give (path : List String) (key : String) (value : Setting)

/-- A document in the making. -/
structure Document where
  /-- The keys and values of the outermost table. -/
  root : Entries
  /-- The path to the open table. -/
  place : List String

namespace Document

/-- A document without keys. -/
def empty : Document :=
  ⟨[], []⟩

/-- Carries out a statement, if it is allowed. -/
def add (d : Document) : Statement → Option Document
  | .openTable path key => do
    let root ← d.root.change false (fun _ e ↦ Entries.openTable key e) path .header
    return ⟨root, path ++ [key]⟩
  | .openAnother path key => do
    let root ← d.root.change false (fun _ e ↦ Entries.openAnother key e) path .header
    return ⟨root, path ++ [key]⟩
  | .give path key value => do
    let root ← d.root.change false (fun origin e ↦ Entries.give path key value origin e) d.place
      .header
    return { d with root }

end Document

end NetOnChip
