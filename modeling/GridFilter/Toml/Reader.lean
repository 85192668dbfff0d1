import GridFilter.Toml.Draft
import GridFilter.Toml.Word

/-! Reading TOML. Brackets nest at most 79 deep. -/

namespace GridFilter.Toml

/-! ### Values -/

/-- Items separated by commas up to the closing bracket, with an optional comma behind the last. The bound is the
    count of items that may still be read. -/
def itemsUpTo {α : Type} (item : Reader α) (closing : Char) : (bound : Nat) → Reader (List α)
  | 0, _ => none
  | bound + 1, text =>
    match skipSpace text with
    | [] => none
    | c :: rest =>
      if c = closing then some ([], rest)
      else do
        let (first, rest) ← item (c :: rest)
        match skipSpace rest with
        | ',' :: rest => do
          let (others, rest) ← itemsUpTo item closing bound rest
          return (first :: others, rest)
        | d :: rest => if d = closing then return ([first], rest) else none
        | [] => none

/-- What stands between an opening bracket and the closing one. -/
def bracketed {α : Type} (item : Reader α) (closing : Char) : Reader (List α) := fun text =>
  itemsUpTo item closing (text.length + 1) text

/-- A key, an equals sign and a value. -/
def entry (value : Reader Toml) : Reader (Key × Toml) := fun text => do
  let (key, rest) ← key text
  match rest with
  | '=' :: rest => do
    let (value, rest) ← value (skipBlanks rest)
    return ((key, value), rest)
  | _ => none

/-- The table that entries give. -/
def tableOf? (entries : List (Key × Toml)) : Option Toml := do
  let drafts ← entries.foldlM (fun drafts (key, value) => Drafts.add key value .header drafts) []
  return .table (closeEntries drafts)

/-- A value without brackets. -/
def scalar : Reader Toml
  | '"' :: rest => (quoted ('"' :: rest)).map fun (s, rest) => (.string s, rest)
  | '\'' :: rest => (quoted ('\'' :: rest)).map fun (s, rest) => (.string s, rest)
  | text =>
    let (word, rest) := wordOf text
    (ofWord? word).map (·, rest)

/-- A value whose brackets nest at most so deep. -/
def value : (nesting : Nat) → Reader Toml
  | 0 => fun text => if text.head? = some '[' ∨ text.head? = some '\x7b' then none else scalar text
  | nesting + 1 => fun text =>
    match text with
    | '[' :: rest => (bracketed (value nesting) ']' rest).map fun (items, rest) => (.array items, rest)
    | '\x7b' :: rest => do
      let (entries, rest) ← bracketed (entry (value nesting)) '\x7d' rest
      return (← tableOf? entries, rest)
    | text => scalar text

/-- How deep brackets may nest. -/
def maxNesting : Nat := 79

/-! ### Documents -/

/-- A document being read: its entries so far, and the path of the table that was opened last. -/
structure Progress where
  entries : Drafts := []
  path : List String := []

/-- The header of a table or of one more table of a list, behind its first bracket. -/
def header (progress : Progress) (text : List Char) : Option (Progress × List Char) :=
  match text with
  | '[' :: rest => do
    let (key, rest) ← key (skipBlanks rest)
    match rest with
    | ']' :: ']' :: rest => return (⟨← progress.entries.openRow key, key.path ++ [key.last]⟩, rest)
    | _ => none
  | _ => do
    let (key, rest) ← key (skipBlanks text)
    match rest with
    | ']' :: rest => return (⟨← progress.entries.openTable key, key.path ++ [key.last]⟩, rest)
    | _ => none

/-- What stands on a line, and the text behind it: nothing, a header, or an entry. -/
def statement (progress : Progress) (text : List Char) : Option (Progress × List Char) :=
  match skipBlanks text with
  | '[' :: rest => header progress rest
  | [] => some (progress, [])
  | c :: rest =>
    if c = '#' ∨ isControl c then some (progress, c :: rest)
    else do
      let ((key, value), rest) ← entry (value maxNesting) (c :: rest)
      return ({ progress with entries := ← progress.entries.addBelow progress.path key value }, rest)

/-- The lines of a text, at most `bound` of them. -/
def statements : (bound : Nat) → Progress → List Char → Option Progress
  | _, progress, [] => some progress
  | 0, _, _ => none
  | bound + 1, progress, text => do
    let (progress, rest) ← statement progress text
    statements bound progress (← lineEnd? rest)

/-- A text without the byte order mark in front of it. -/
def withoutMark : List Char → List Char
  | '\uFEFF' :: rest => rest
  | text => text

/-- The table that a whole text spells. -/
def parse? (text : String) : Option Toml := do
  let text := withoutMark text.toList
  let progress ← statements (text.length + 1) {} text
  return .table (closeEntries progress.entries)

end GridFilter.Toml
