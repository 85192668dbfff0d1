import GridFilter.Settings.Basic
import GridFilter.Table

/-! What a settings file says, whatever its format: sections with keys and values. Keys and sections that the program
    does not know are ignored; a known key has to have a value of its type and may stand only once. -/

namespace GridFilter.Settings

/-! ### Sections and keys -/

/-- A value of a settings file as it is written. -/
inductive Scalar where
  | flag (b : Bool)
  | natural (n : Nat)
  | word (s : String)
deriving DecidableEq, Repr

/-- The sections that hold some settings, every key spelled. -/
def sections (settings : Settings) : Table (Table Scalar) := [
  ("conversion", [("short_circuit", .flag settings.shortCircuit), ("expand_in", .flag settings.expandIn),
    ("missing_attribute", .word settings.missingAttribute.name)]),
  ("parser", [("max_depth", .natural settings.maxDepth)]),
  ("output", [("pretty", .flag settings.pretty)]),
  ("debug", [("verbosity", .natural settings.verbosity)])]

/-- The names of the sections, and of the keys of each, in order. -/
def layout : Table (List String) := (sections {}).mapValues Table.names

/-! ### Formats -/

/-- How the values of a file format are read as settings. Each reading refuses a value that does not suit it. -/
structure Format (α : Type) where
  /-- The entries of a section; a section without names gives its values to the keys in order. -/
  entries? : List String → α → Option (Table α)
  /-- The value is there, and not a word for nothing. -/
  isPresent? : α → Option Bool
  flag? : α → Option Bool
  natural? : α → Option Nat
  /-- The word that chooses one of several names. -/
  choice? : α → Option String
  /-- The value may stand under a name that is not known. -/
  isIgnorable : α → Bool

namespace Format
variable {α : Type}

/-- The entries of a section with known names, each of which stands at most once. -/
def known? (format : Format α) (names : List String) (value : α) : Option (Table α) := do
  let entries ← format.entries? names value
  let (known, others) := entries.partition fun (name, _) => names.contains name
  if (Table.names known).Nodup ∧ others.all (format.isIgnorable ·.2) then some known else none

/-- The entries of a section of a file, none where the section is missing. -/
def section? (format : Format α) (file : Table α) (name : String) : Option (Table α) :=
  match file.get? name with
  | none => some []
  | some value => format.known? ((layout.get? name).getD []) value

/-- The value of a key as `read` takes it, nothing where the key or its value is missing. -/
def key? {β : Type} (format : Format α) (entries : Table α) (name : String) (read : α → Option β) :
    Option (Option β) :=
  match entries.get? name with
  | none => some none
  | some value => do if ← format.isPresent? value then return some (← read value) else return none

/-- A whole number below a bound. -/
def below? (format : Format α) (bound : Nat) (value : α) : Option Nat := (format.natural? value).filter (· < bound)

/-- The keys that a settings file spells, of which `root` is the whole. -/
def layer? (format : Format α) (root : α) : Option Layer := do
  let file ← format.known? layout.names root
  let conversion ← format.section? file "conversion"
  let parser ← format.section? file "parser"
  let output ← format.section? file "output"
  let debug ← format.section? file "debug"
  return {
    shortCircuit := ← format.key? conversion "short_circuit" format.flag?
    expandIn := ← format.key? conversion "expand_in" format.flag?
    missingAttribute := ← format.key? conversion "missing_attribute" fun value =>
      (format.choice? value).bind MissingAttribute.ofName?
    maxDepth := ← format.key? parser "max_depth" (format.below? UInt64.size)
    pretty := ← format.key? output "pretty" format.flag?
    verbosity := ← format.key? debug "verbosity" (format.below? 256) }

end Format

end GridFilter.Settings
