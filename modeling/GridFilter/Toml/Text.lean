import GridFilter.Number.Decimal
import GridFilter.Toml.Basic

/-! The texts of TOML: blanks, ends of lines and comments, strings, and keys. A line ends with a line feed or with a
    carriage return and a line feed; a carriage return by itself stands nowhere. -/

namespace GridFilter.Toml

/-! ### Blanks, lines and comments -/

/-- The blanks within a line. -/
def isBlank (c : Char) : Bool := c == ' ' || c == '\t'

/-- The control characters, which stand in no string and no comment; the tab is not one of them. -/
def isControl (c : Char) : Bool := (c.toNat < 0x20 && c != '\t') || c.toNat == 0x7F

/-- A text without the blanks in front of it. -/
def skipBlanks (text : List Char) : List Char := text.dropWhile isBlank

/-- What follows the end of a line in front of a text. -/
def lineBreak? : List Char → Option (List Char)
  | '\n' :: rest | '\r' :: '\n' :: rest => some rest
  | _ => none

/-- A text without the comment in front of it, which reaches up to a control character: the end of its line. -/
def skipComment : List Char → List Char
  | '#' :: rest => rest.dropWhile (!isControl ·)
  | text => text

/-- What follows the line that a text starts with the rest of: blanks and a comment at most. -/
def lineEnd? (text : List Char) : Option (List Char) :=
  match skipComment (skipBlanks text) with
  | [] => some []
  | text => lineBreak? text

/-- A text without the blanks, comments and ends of lines in front of it; of the latter at most `bound`. -/
def skipLines : (bound : Nat) → List Char → List Char
  | 0, text => text
  | bound + 1, text =>
    let text := skipComment (skipBlanks text)
    match lineBreak? text with
    | some rest => skipLines bound rest
    | none => text

/-- A text without the blanks, comments and ends of lines in front of it. -/
def skipSpace (text : List Char) : List Char := skipLines (text.length + 1) text

/-! ### Strings -/

/-- The character that the text after a backslash stands for. -/
def escapedChar : Reader Char
  | 'b' :: rest => some ('\x08', rest)
  | 't' :: rest => some ('\t', rest)
  | 'n' :: rest => some ('\n', rest)
  | 'f' :: rest => some ('\x0c', rest)
  | 'r' :: rest => some ('\r', rest)
  | 'e' :: rest => some ('\x1b', rest)
  | '"' :: rest => some ('"', rest)
  | '\\' :: rest => some ('\\', rest)
  | 'x' :: rest => Radix.charOfDigits 2 rest
  | 'u' :: rest => Radix.charOfDigits 4 rest
  | 'U' :: rest => Radix.charOfDigits 8 rest
  | _ => none

/-- The characters up to the quote that closes a line of text. The bound is the count of characters that may still be
    read. -/
def lineBody (quote : Char) : (bound : Nat) → Reader (List Char)
  | 0, _ => none
  | _ + 1, [] => none
  | bound + 1, c :: rest =>
    if c = quote then some ([], rest)
    else if isControl c then none
    else do
      let (c, rest) ← if c = '\\' ∧ quote = '"' then escapedChar rest else some (c, rest)
      let (body, rest) ← lineBody quote bound rest
      return (c :: body, rest)

/-- What closes a text of several lines: three quotes, and up to two before them that belong to the text. -/
def closing (quote : Char) (text : List Char) : Option (List Char × List Char) :=
  let quotes := min 5 (text.takeWhile (· == quote)).length
  if 3 ≤ quotes then some (List.replicate (quotes - 3) quote, text.drop quotes) else none

/-- A text without the blanks and ends of lines in front of it; of the latter at most `bound`. -/
def skipEmptyLines : (bound : Nat) → List Char → List Char
  | 0, text => text
  | bound + 1, text =>
    match lineBreak? (skipBlanks text) with
    | some rest => skipEmptyLines bound rest
    | none => skipBlanks text

/-- What a backslash at the end of a line joins to it: the text behind the blanks and ends of lines after it. -/
def joinedLine? (text : List Char) : Option (List Char) :=
  (lineBreak? (skipBlanks text)).map fun rest => skipEmptyLines (rest.length + 1) rest

/-- The characters up to the three quotes that close a text of several lines. The bound is the count of characters
    that may still be read. -/
def linesBody (quote : Char) : (bound : Nat) → Reader (List Char)
  | 0, _ => none
  | bound + 1, text =>
    match closing quote text with
    | some result => some result
    | none =>
      match text, lineBreak? text with
      | _, some rest => do
        let (body, rest) ← linesBody quote bound rest
        return ('\n' :: body, rest)
      | [], none => none
      | c :: rest, none =>
        if isControl c then none
        else if c = '\\' ∧ quote = '"' then
          match joinedLine? rest with
          | some rest => linesBody quote bound rest
          | none => do
            let (c, rest) ← escapedChar rest
            let (body, rest) ← linesBody quote bound rest
            return (c :: body, rest)
        else do
          let (body, rest) ← linesBody quote bound rest
          return (c :: body, rest)

/-- A string on one line, behind its opening quote. -/
def lineString (quote : Char) : Reader String := fun text => do
  let (body, rest) ← lineBody quote (text.length + 1) text
  return (.ofList body, rest)

/-- A string of several lines, behind its opening quotes; an end of line right behind them does not count. -/
def linesString (quote : Char) : Reader String := fun text => do
  let text := (lineBreak? text).getD text
  let (body, rest) ← linesBody quote (text.length + 1) text
  return (.ofList body, rest)

/-- A string: on one line or on several, with escapes between double quotes and without them between single ones. -/
def quoted : Reader String
  | '"' :: '"' :: '"' :: rest => linesString '"' rest
  | '\'' :: '\'' :: '\'' :: rest => linesString '\'' rest
  | '"' :: rest => lineString '"' rest
  | '\'' :: rest => lineString '\'' rest
  | _ => none

/-! ### Keys -/

/-- The characters of a name without quotes. -/
def isNameChar (c : Char) : Bool := c.isAlphanum || c == '_' || c == '-'

/-- A name, in quotes on one line or without quotes. -/
def name : Reader String
  | '"' :: rest => lineString '"' rest
  | '\'' :: rest => lineString '\'' rest
  | text =>
    match text.takeWhile isNameChar with
    | [] => none
    | chars => some (.ofList chars, text.dropWhile isNameChar)

/-- A key: the names of the tables on the way, and the name in the last of them. -/
structure Key where
  path : List String
  last : String
deriving DecidableEq, Repr

/-- At most so many names with points between them. -/
def names : (bound : Nat) → Reader Key
  | 0, _ => none
  | bound + 1, text => do
    let (first, rest) ← name text
    match skipBlanks rest with
    | '.' :: rest => do
      let (key, rest) ← names bound (skipBlanks rest)
      return (⟨first :: key.path, key.last⟩, rest)
    | rest => return (⟨[], first⟩, rest)

/-- A key, and what follows the blanks behind it. -/
def key : Reader Key := fun text => names (text.length + 1) text

end GridFilter.Toml
