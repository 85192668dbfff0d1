import GridFilter.Toml.Text

/-! Tables that may still grow. A table is opened by a header, on the way to the header of another table, or on the
    way of a key with several names; a header opens a table once, and such a key adds only to tables that keys like it
    have opened. -/

namespace GridFilter.Toml

/-- How a table was opened. -/
inductive Origin where
  | header
  | passage
  | key
deriving DecidableEq, Repr

/-- What stands under a name of a table that may still grow: a value, a table, or a list of tables of which the last
    may grow. -/
inductive Draft where
  | closed (value : Toml)
  | table (origin : Origin) (entries : List (String × Draft))
  | tables (earlier : List Toml) (entries : List (String × Draft))
deriving Repr, Inhabited

/-- The entries of a table that may still grow. -/
abbrev Drafts := List (String × Draft)

mutual

/-- What stands under a name in the end. -/
def Draft.close : Draft → Toml
  | .closed value => value
  | .table _ entries => .table (closeEntries entries)
  | .tables earlier entries => .array (earlier ++ [.table (closeEntries entries)])

/-- The entries of a table in the end. -/
def closeEntries : List (String × Draft) → List (String × Toml)
  | [] => []
  | (name, draft) :: rest => (name, draft.close) :: closeEntries rest

end

namespace Drafts

/-- Entries in which the one with a name is another. -/
def replace (name : String) (draft : Draft) (entries : Drafts) : Drafts :=
  entries.map fun (known, old) => if known = name then (known, draft) else (known, old)

/-- Changes the table at the end of a path; tables that are missing on the way are opened. Keys do not pass through
    a table with a header. -/
def change (way : Origin) (act : Origin → Drafts → Option Drafts) : List String → Origin → Drafts → Option Drafts
  | [], origin, entries => act origin entries
  | name :: path, _, entries =>
    match entries.lookup name with
    | none => do
      let inner ← change way act path way []
      return entries ++ [(name, .table way inner)]
    | some (.table origin inner) =>
      if way = .key ∧ origin = .header then none
      else do
        let inner ← change way act path origin inner
        return replace name (.table origin inner) entries
    | some (.tables earlier inner) => do
      let inner ← change way act path .header inner
      return replace name (.tables earlier inner) entries
    | some (.closed _) => none

/-- Opens a table with a header of its own: a new one, or one that was passed before. -/
def openTable (key : Key) (entries : Drafts) : Option Drafts :=
  change .passage (fun _ entries =>
    match entries.lookup key.last with
    | none => some (entries ++ [(key.last, .table .header [])])
    | some (.table .passage inner) => some (replace key.last (.table .header inner) entries)
    | _ => none) key.path .header entries

/-- Opens one more table of a list. -/
def openRow (key : Key) (entries : Drafts) : Option Drafts :=
  change .passage (fun _ entries =>
    match entries.lookup key.last with
    | none => some (entries ++ [(key.last, .tables [] [])])
    | some (.tables earlier inner) =>
      some (replace key.last (.tables (earlier ++ [.table (closeEntries inner)]) []) entries)
    | _ => none) key.path .header entries

/-- Adds a value under a key of the table that was opened last. Its name is new there, and a table that keys have
    opened takes no key of one name. -/
def add (key : Key) (value : Toml) (origin : Origin) (entries : Drafts) : Option Drafts :=
  change .key (fun origin entries =>
    if (origin = .key ↔ key.path ≠ []) ∧ (entries.lookup key.last).isNone then
      some (entries ++ [(key.last, .closed value)])
    else none) key.path origin entries

/-- Adds a value under a key of the table at the end of a path. -/
def addBelow (path : List String) (key : Key) (value : Toml) (entries : Drafts) : Option Drafts :=
  change .passage (add key value) path .header entries

end Drafts

end GridFilter.Toml
