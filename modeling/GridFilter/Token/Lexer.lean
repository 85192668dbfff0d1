import GridFilter.Text.Pattern
import GridFilter.Token.Basic

/-! Reading the tokens of a filter text. Blanks separate tokens and are otherwise left out. Keywords are matched in
    any letter case and only as whole words; `IS` and `IS NOT` are read as `=` and `!=`, and `<>` as `!=`. -/

namespace GridFilter

/-- No token starts at `position`; `remaining` is the text from there on. -/
structure LexError where
  remaining : String
  position : Nat
deriving DecidableEq, Repr

/-- The message about a text that is no token. -/
def LexError.message (e : LexError) : String :=
  "Unexpected input at position " ++ toString e.position ++ ": '" ++ e.remaining ++ "'"

/-- A token without its place: what it is, its text, and the characters it was read from. -/
structure Lexeme where
  kind : TokenKind
  text : String
  span : List Char
deriving DecidableEq, Repr

namespace Lexeme

/-- Takes a lexeme off the front of a text, or finds none there. -/
abbrev Scanner := List Char → Option (Lexeme × List Char)

/-! ### Words -/

/-- The characters of names and numbers. -/
def isNameChar (c : Char) : Bool := c.isAlphanum || c == '_' || c == '.'

/-- A text that does not go on with a name character. -/
def endsWord : List Char → Bool
  | [] => true
  | c :: _ => !isNameChar c

/-- The characters at the front that spell a word given in capitals, in any letter case. -/
def letters? (word text : List Char) : Option (List Char × List Char) :=
  if (text.take word.length).map Char.toUpper = word then some (text.take word.length, text.drop word.length) else none

/-- A word given in capitals, in any letter case, where it ends. -/
def word? (word text : List Char) : Option (List Char × List Char) :=
  match letters? word text with
  | some (span, rest) => if endsWord rest then some (span, rest) else none
  | none => none

/-- The blanks that may part the two words of an operator. -/
def isGap (c : Char) : Bool := c == ' ' || c == '\t' || c == '\r' || c == '\n'

/-- Two words with a gap between them. -/
def phrase? (first second text : List Char) : Option (List Char × List Char) :=
  match letters? first text with
  | none => none
  | some (span, rest) =>
    match rest.takeWhile isGap with
    | [] => none
    | gap =>
      match word? second (rest.dropWhile isGap) with
      | some (span', rest) => some (span ++ gap ++ span', rest)
      | none => none

/-- A lexeme of a fixed text. -/
def fixed (kind : TokenKind) (text : String) (found : Option (List Char × List Char)) : Option (Lexeme × List Char) :=
  found.map fun (span, rest) => (⟨kind, text, span⟩, rest)

/-! ### Placeholders, strings, numbers and names -/

/-- A name in braces, the braces themselves possibly in quotes; blanks around the name are left out. -/
def placeholder? : Scanner
  | '\'' :: rest =>
    match Text.braced? Text.notClosing rest with
    | some (body, '\'' :: after) =>
      some (⟨.placeholder, .ofList (Text.trim body), '\'' :: (Text.inBraces body ++ ['\''])⟩, after)
    | _ => none
  | text =>
    match Text.braced? Text.notClosing text with
    | some (body, after) => some (⟨.placeholder, .ofList (Text.trim body), Text.inBraces body⟩, after)
    | none => none

/-- The text up to the quote that closes it, quotes inside it being doubled: the text with those undone, its
    characters as written with the closing quote, and what follows. -/
def quotedBody? : List Char → Option (List Char × List Char × List Char)
  | [] => none
  | '\'' :: '\'' :: rest =>
    (quotedBody? rest).map fun (text, span, after) => ('\'' :: text, '\'' :: '\'' :: span, after)
  | '\'' :: rest => some ([], ['\''], rest)
  | c :: rest => (quotedBody? rest).map fun (text, span, after) => (c :: text, c :: span, after)

/-- A string in single quotes. -/
def string? : Scanner
  | '\'' :: rest => (quotedBody? rest).map fun (text, span, after) => (⟨.string, .ofList text, '\'' :: span⟩, after)
  | _ => none

/-- A point with digits behind it. -/
def fraction : List Char → List Char × List Char
  | '.' :: rest =>
    match rest.takeWhile Char.isDigit with
    | [] => ([], '.' :: rest)
    | digits => ('.' :: digits, rest.dropWhile Char.isDigit)
  | rest => ([], rest)

/-- A minus sign, if there is one. -/
def sign : List Char → List Char × List Char
  | '-' :: rest => (['-'], rest)
  | rest => ([], rest)

/-- A number: digits with an optional sign and an optional fraction, where the word ends. -/
def number? : Scanner := fun text =>
  let (minus, rest) := sign text
  match rest.takeWhile Char.isDigit with
  | [] => none
  | digits =>
    let (point, rest) := fraction (rest.dropWhile Char.isDigit)
    if endsWord rest then
      let span := minus ++ digits ++ point
      some (⟨.number, .ofList span, span⟩, rest)
    else none

/-- The longest name at the front of a text. -/
def identifier? : Scanner := fun text =>
  match text.takeWhile isNameChar with
  | [] => none
  | span => some (⟨.identifier, .ofList span, span⟩, text.dropWhile isNameChar)

/-- A parenthesis or a comma. -/
def mark? : Scanner
  | '(' :: rest => some (⟨.paren, "(", ['(']⟩, rest)
  | ')' :: rest => some (⟨.paren, ")", [')']⟩, rest)
  | ',' :: rest => some (⟨.comma, ",", [',']⟩, rest)
  | _ => none

/-! ### Operators -/

/-- An operator of signs; of two that start alike the longer is taken. -/
def symbol? : Scanner
  | '>' :: '=' :: rest => some (⟨.operator, ">=", ['>', '=']⟩, rest)
  | '<' :: '=' :: rest => some (⟨.operator, "<=", ['<', '=']⟩, rest)
  | '<' :: '>' :: rest => some (⟨.operator, "!=", ['<', '>']⟩, rest)
  | '!' :: '=' :: rest => some (⟨.operator, "!=", ['!', '=']⟩, rest)
  | '=' :: rest => some (⟨.operator, "=", ['=']⟩, rest)
  | '>' :: rest => some (⟨.operator, ">", ['>']⟩, rest)
  | '<' :: rest => some (⟨.operator, "<", ['<']⟩, rest)
  | _ => none

/-- An operator of words; of two that start alike the longer is tried first. -/
def wordOperator? : Scanner := fun text =>
  fixed .operator "!=" (phrase? ['I', 'S'] ['N', 'O', 'T'] text) <|>
  fixed .operator "=" (word? ['I', 'S'] text) <|>
  fixed .operator "NOT IN" (phrase? ['N', 'O', 'T'] ['I', 'N'] text) <|>
  fixed .operator "NOT LIKE" (phrase? ['N', 'O', 'T'] ['L', 'I', 'K', 'E'] text) <|>
  fixed .operator "AND" (word? ['A', 'N', 'D'] text) <|>
  fixed .operator "OR" (word? ['O', 'R'] text) <|>
  fixed .operator "IN" (word? ['I', 'N'] text) <|>
  fixed .operator "BETWEEN" (word? ['B', 'E', 'T', 'W', 'E', 'E', 'N'] text) <|>
  fixed .operator "LIKE" (word? ['L', 'I', 'K', 'E'] text)

/-- The name of the one function and the word for null. -/
def keyword? : Scanner := fun text =>
  fixed .function "ISNULL" (word? ['I', 'S', 'N', 'U', 'L', 'L'] text) <|>
  fixed .null "NULL" (word? ['N', 'U', 'L', 'L'] text)

/-! ### One lexeme -/

/-- The lexeme at the front of a text that does not start with a blank. -/
def first? : Scanner := fun text =>
  keyword? text <|> placeholder? text <|> string? text <|> number? text <|> symbol? text <|> wordOperator? text <|>
    identifier? text <|> mark? text

end Lexeme

namespace Token

/-- The tokens of a text that starts at a byte offset and not with a blank. Each takes a character at least, so that
    the length of the text bounds their number. -/
def scan : (bound : Nat) → (position : Nat) → List Char → Except LexError (List Token)
  | _, _, [] => .ok []
  | 0, position, text => .error ⟨.ofList text, position⟩
  | bound + 1, position, text =>
    match Lexeme.first? text with
    | none => .error ⟨.ofList text, position⟩
    | some (lexeme, rest) =>
      let gap := rest.takeWhile Text.isBlank
      let next := position + Text.byteSize lexeme.span + Text.byteSize gap
      match scan bound next (Text.trimStart rest) with
      | .ok tokens => .ok (⟨lexeme.kind, lexeme.text, position⟩ :: tokens)
      | .error e => .error e

/-- The tokens of a text. -/
def ofChars (text : List Char) : Except LexError (List Token) :=
  scan text.length (Text.byteSize (text.takeWhile Text.isBlank)) (Text.trimStart text)

/-- The tokens of a filter text, in order, or the place where none starts. -/
def ofText (text : String) : Except LexError (List Token) := ofChars text.toList

end Token

end GridFilter
