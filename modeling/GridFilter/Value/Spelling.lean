import GridFilter.Value.Json

/-! The spelling of a value in a filter text: `NULL`, strings in single quotes with every quote inside doubled, lists
    in parentheses, and objects as JSON. -/

namespace GridFilter.Value

/-- A text with every single quote doubled. -/
def doubleQuotes (text : List Char) : List Char := text.flatMap fun c => if c = '\'' then ['\'', '\''] else [c]

/-- A string in single quotes. -/
def quoted (s : String) : String := .ofList ('\'' :: (doubleQuotes s.toList ++ ['\'']))

mutual

/-- The spelling of a value. -/
def spelling : Value → String
  | .null => "NULL"
  | .bool b => if b then "true" else "false"
  | .int n => toString n.toInt
  | .float x => x.toText
  | .string s => quoted s
  | .array items => "(" ++ ", ".intercalate (spellings items) ++ ")"
  | .object entries => (shown (.object entries)).compact

/-- The spellings of the values of a list. -/
def spellings : List Value → List String
  | [] => []
  | item :: rest => spelling item :: spellings rest

end

end GridFilter.Value
