import GridFilter.Json.Basic
import GridFilter.Number.Format

/-! Writing JSON, either on one line without blanks or over several lines with two blanks per level. -/

namespace GridFilter.Json

/-! ### Strings -/

/-- The four lower-case hexadecimal digits of a character below 65536. -/
def hex4 (c : Char) : List Char :=
  let digits := Nat.toDigits 16 c.toNat
  List.replicate (4 - digits.length) '0' ++ digits

/-- A character inside quotes: quotes, backslashes and control characters are escaped. -/
def escape (c : Char) : List Char :=
  if c = '"' then ['\\', '"']
  else if c = '\\' then ['\\', '\\']
  else if c = '\x08' then ['\\', 'b']
  else if c = '\x0c' then ['\\', 'f']
  else if c = '\n' then ['\\', 'n']
  else if c = '\r' then ['\\', 'r']
  else if c = '\t' then ['\\', 't']
  else if c.toNat < 0x20 then '\\' :: 'u' :: hex4 c
  else [c]

/-- A string in quotes. -/
def quote (s : String) : String := .ofList ('"' :: (s.toList.flatMap escape ++ ['"']))

/-! ### One line -/

mutual

/-- A value on one line. -/
def compact : Json → String
  | .null => "null"
  | .bool b => if b then "true" else "false"
  | .integer n => toString n
  | .double x => x.toJsonText
  | .string s => quote s
  | .array items => "[" ++ ",".intercalate (compactItems items) ++ "]"
  | .object entries => "\x7b" ++ ",".intercalate (compactEntries entries) ++ "\x7d"

/-- The items of a list, each on one line. -/
def compactItems : List Json → List String
  | [] => []
  | item :: rest => compact item :: compactItems rest

/-- The entries of an object, each on one line. -/
def compactEntries : List (String × Json) → List String
  | [] => []
  | (key, value) :: rest => (quote key ++ ":" ++ compact value) :: compactEntries rest

end

/-! ### Several lines -/

/-- Items between brackets on lines of their own, indented one level more than the brackets. -/
def block (indent : Nat) (opening closing : String) (items : List String) : String :=
  if items.isEmpty then opening ++ closing
  else
    let inner := String.ofList (List.replicate (2 * (indent + 1)) ' ')
    let outer := String.ofList (List.replicate (2 * indent) ' ')
    opening ++ "\n" ++ ",\n".intercalate (items.map (inner ++ ·)) ++ "\n" ++ outer ++ closing

mutual

/-- A value over several lines, its first line standing at a level of indentation. -/
def prettyAt (indent : Nat) : Json → String
  | .array items => block indent "[" "]" (prettyItems (indent + 1) items)
  | .object entries => block indent "\x7b" "\x7d" (prettyEntries (indent + 1) entries)
  | .null => "null"
  | .bool b => if b then "true" else "false"
  | .integer n => toString n
  | .double x => x.toJsonText
  | .string s => quote s

/-- The items of a list at a level of indentation. -/
def prettyItems (indent : Nat) : List Json → List String
  | [] => []
  | item :: rest => prettyAt indent item :: prettyItems indent rest

/-- The entries of an object at a level of indentation. -/
def prettyEntries (indent : Nat) : List (String × Json) → List String
  | [] => []
  | (key, value) :: rest => (quote key ++ ": " ++ prettyAt indent value) :: prettyEntries indent rest

end

/-- A value over several lines. -/
def pretty : Json → String := prettyAt 0

end GridFilter.Json
