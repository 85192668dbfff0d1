/-! Tables: entries by name, in the order in which the names were first mentioned. Writing to a name that is present
    keeps its place. -/

namespace GridFilter

/-- Entries by name, in order. -/
abbrev Table (α : Type) := List (String × α)

namespace Table
variable {α β : Type}

/-- The value under a name. -/
def get? (table : Table α) (name : String) : Option α := table.lookup name

/-- The names in order. -/
def names (table : Table α) : List String := table.map Prod.fst

/-- Writes a value under a name: in place when the name is present, behind all others when it is not. -/
def insert (table : Table α) (name : String) (value : α) : Table α :=
  match table with
  | [] => [(name, value)]
  | (known, old) :: rest => if known = name then (known, value) :: rest else (known, old) :: insert rest name value

/-- The table that a list of entries gives: each name at its first place with its last value. -/
def ofEntries (entries : List (String × α)) : Table α :=
  entries.foldl (fun table (name, value) => table.insert name value) []

/-- A table with every value changed by `f`. -/
def mapValues (f : α → β) (table : Table α) : Table β := table.map fun (name, value) => (name, f value)

end Table

end GridFilter
