/-! A YAML text being read: what is left of it and where that starts. Columns count characters, and a line ends with
    a carriage return, a line feed, both, a next-line character, or a separator of lines or paragraphs. -/

namespace GridFilter.Yaml

/-! ### Characters -/

/-- The blanks within a line. -/
def isBlank (c : Char) : Bool := c == ' ' || c == '\t'

/-- The characters that end a line. -/
def isBreak (c : Char) : Bool := c == '\n' || c == '\r' || c == '\x85' || c == '\u2028' || c == '\u2029'

/-- The characters of names: ASCII letters and digits, hyphens and underscores. -/
def isNameChar (c : Char) : Bool := c.isAlphanum || c == '-' || c == '_'

/-- The characters that a text may hold. -/
def isPrintable (c : Char) : Bool :=
  let n := c.toNat
  c == '\t' || c == '\n' || c == '\r' || (0x20 ≤ n && n ≤ 0x7E) || n == 0x85 || (0xA0 ≤ n && n ≤ 0xD7FF) ||
    (0xE000 ≤ n && n ≤ 0xFFFD) || 0x10000 ≤ n

/-- A text that starts with a blank or with the end of a line, or that is at its end. -/
def isGap : List Char → Bool
  | [] => true
  | c :: _ => isBlank c || isBreak c

/-- Three times the same mark, with a gap behind them. -/
def isMark (mark : Char) : List Char → Bool
  | a :: b :: c :: rest => a == mark && b == mark && c == mark && isGap rest
  | _ => false

/-! ### Cursors -/

/-- What is left of a text, and where it starts. -/
structure Cursor where
  rest : List Char
  index : Nat := 0
  line : Nat := 0
  column : Nat := 0
deriving Repr

namespace Cursor

/-- Past some characters of a line. -/
def advance (cursor : Cursor) (count : Nat) : Cursor :=
  { cursor with
    rest := cursor.rest.drop count, index := cursor.index + count, column := cursor.column + count }

/-- Past one character of a line. -/
def next (cursor : Cursor) : Cursor := cursor.advance 1

/-- The next character satisfies `p`. -/
def sees (cursor : Cursor) (p : Char → Bool) : Bool := cursor.rest.head?.any p

/-- The characters up to the first that does not satisfy `p`, all on one line, and the cursor behind them. -/
def takeWhile (cursor : Cursor) (p : Char → Bool) : List Char × Cursor :=
  let chars := cursor.rest.takeWhile p
  (chars, cursor.advance chars.length)

/-- Past the characters up to the first that does not satisfy `p`, all on one line. -/
def skipWhile (cursor : Cursor) (p : Char → Bool) : Cursor := (cursor.takeWhile p).2

/-- Past the end of a line that is so many characters long. -/
def startLine (cursor : Cursor) (count : Nat) : Cursor where
  rest := cursor.rest.drop count
  index := cursor.index + count
  line := cursor.line + 1
  column := 0

/-- The end of a line as scalars hold it, and the cursor behind it: a line feed, or a separator as it is. -/
def lineBreak? (cursor : Cursor) : Option (Char × Cursor) :=
  match cursor.rest with
  | '\r' :: '\n' :: _ => some ('\n', cursor.startLine 2)
  | '\n' :: _ | '\r' :: _ | '\x85' :: _ => some ('\n', cursor.startLine 1)
  | '\u2028' :: _ => some ('\u2028', cursor.startLine 1)
  | '\u2029' :: _ => some ('\u2029', cursor.startLine 1)
  | _ => none

/-- Past a byte order mark at the start of a line. -/
def skipOrderMark (cursor : Cursor) : Cursor :=
  if cursor.column = 0 && cursor.sees (· == '\uFEFF') then cursor.next else cursor

/-- Past a comment. -/
def skipComment (cursor : Cursor) : Cursor :=
  if cursor.sees (· == '#') then cursor.skipWhile (!isBreak ·) else cursor

/-- Past the blanks, the comment and the end of a line, with nothing else on it. -/
def endLine? (cursor : Cursor) : Option Cursor :=
  let cursor := (cursor.skipWhile isBlank).skipComment
  match cursor.lineBreak? with
  | some (_, cursor) => some cursor
  | none => if cursor.rest = [] then some cursor else none

/-- The mark of the start or of the end of a document, which stands at the start of a line. -/
def isDocumentMark (cursor : Cursor) : Bool :=
  cursor.column = 0 && (isMark '-' cursor.rest || isMark '.' cursor.rest)

end Cursor

end GridFilter.Yaml
