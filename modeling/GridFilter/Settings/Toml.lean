import GridFilter.Json.Printer
import GridFilter.Settings.Document
import GridFilter.Toml.Reader

/-! Settings files in TOML. A section is a table, or an array of the values of its keys in order. -/

namespace GridFilter.Settings.Toml

/-! ### Writing -/

/-- A value. -/
def scalarText : Scalar → String
  | .flag b => if b then "true" else "false"
  | .natural n => toString n
  | .word s => Json.quote s

/-- A table: its name and one line for each key. -/
def tableText (name : String) (entries : Table Scalar) : String :=
  "[" ++ name ++ "]\n" ++ String.join (entries.map fun (key, value) => key ++ " = " ++ scalarText value ++ "\n")

/-- The settings as a file. -/
def write (settings : Settings) : String :=
  "\n".intercalate ((sections settings).map fun (name, entries) => tableText name entries)

/-! ### Reading -/

/-- The entries of a section. A moment has none. -/
def entries? (names : List String) : Toml → Option (Table Toml)
  | .table entries => some entries
  | .array items => some (names.zip items)
  | .moment => some []
  | _ => none

/-- A truth value. -/
def flag? : Toml → Option Bool
  | .boolean b => some b
  | _ => none

/-- A whole number that is not negative. -/
def natural? : Toml → Option Nat
  | .integer n => if 0 ≤ n then some n.toNat else none
  | _ => none

/-- A string, or the name of the only entry of a table, under which nothing stands. -/
def choice? : Toml → Option String
  | .string s => some s
  | .table [(name, .table [])] | .table [(name, .array [])] => some name
  | _ => none

/-- How TOML is read as settings. -/
def format : Format Toml where
  entries? := entries?
  isPresent? _ := some true
  flag? := flag?
  natural? := natural?
  choice? := choice?
  isIgnorable := Toml.isBounded

/-- The keys that a file spells. -/
def read? (text : String) : Option Layer := (Toml.parse? text).bind format.layer?

end GridFilter.Settings.Toml
