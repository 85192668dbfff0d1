import GridFilter.Number.Decimal
import GridFilter.Yaml.Cursor

/-! The scalars of YAML: in quotes, without quotes, and as a block of lines. Where a scalar in quotes or without them
    goes on in another line, one end of a line is a space, and of several the first does not count. -/

namespace GridFilter.Yaml

/-- Takes a value at a cursor, or refuses it. -/
abbrev CursorReader (α : Type) := Cursor → Option (α × Cursor)

/-! ### Between words -/

/-- What stands between two words of a scalar: the blanks in front of the first end of a line, and the ends of
    lines. -/
structure Space where
  blanks : List Char := []
  breaks : List Char := []

/-- The text that stands for a space: its blanks in a line, one space for one line feed, and no line feed for the
    first of several. -/
def Space.fold (space : Space) : List Char :=
  match space.breaks with
  | [] => space.blanks
  | ['\n'] => [' ']
  | '\n' :: more => more
  | breaks => breaks

/-- The blanks and ends of lines at a cursor, at most `bound` of them. In front of a column the indentation of a line
    holds no tab. -/
def spaceFrom (column : Nat) : (bound : Nat) → Space → CursorReader Space
  | 0, space => fun cursor => some (space, cursor)
  | bound + 1, space => fun cursor =>
    match cursor.lineBreak? with
    | some (c, cursor) => spaceFrom column bound { space with breaks := space.breaks ++ [c] } cursor
    | none =>
      match cursor.rest with
      | c :: _ =>
        if !isBlank c then some (space, cursor)
        else if space.breaks = [] then spaceFrom column bound { space with blanks := space.blanks ++ [c] } cursor.next
        else if c = '\t' ∧ cursor.column < column then none
        else spaceFrom column bound space cursor.next
      | [] => some (space, cursor)

/-- The blanks and ends of lines at a cursor. -/
def space (column : Nat) : CursorReader Space := fun cursor => spaceFrom column (cursor.rest.length + 1) {} cursor

/-! ### In quotes -/

/-- The character that the text after a backslash stands for. -/
def escapedChar : Reader Char
  | '0' :: rest => some ('\x00', rest)
  | 'a' :: rest => some ('\x07', rest)
  | 'b' :: rest => some ('\x08', rest)
  | 't' :: rest | '\t' :: rest => some ('\t', rest)
  | 'n' :: rest => some ('\n', rest)
  | 'v' :: rest => some ('\x0b', rest)
  | 'f' :: rest => some ('\x0c', rest)
  | 'r' :: rest => some ('\r', rest)
  | 'e' :: rest => some ('\x1b', rest)
  | ' ' :: rest => some (' ', rest)
  | '"' :: rest => some ('"', rest)
  | '/' :: rest => some ('/', rest)
  | '\\' :: rest => some ('\\', rest)
  | 'N' :: rest => some ('\x85', rest)
  | '_' :: rest => some ('\xa0', rest)
  | 'L' :: rest => some ('\u2028', rest)
  | 'P' :: rest => some ('\u2029', rest)
  | 'x' :: rest => Radix.charOfDigits 2 rest
  | 'u' :: rest => Radix.charOfDigits 4 rest
  | 'U' :: rest => Radix.charOfDigits 8 rest
  | _ => none

/-- A piece of a scalar in quotes: a space, or a character. A backslash between double quotes escapes a character, or
    the end of a line with the blanks behind it; two single quotes are one. -/
def quotedPiece (quote : Char) : CursorReader (List Char) := fun cursor =>
  match cursor.rest with
  | [] => none
  | c :: rest =>
    if cursor.isDocumentMark then none
    else if isBlank c || isBreak c then do
      let (space, cursor) ← space 0 cursor
      return (space.fold, cursor)
    else if c = '\\' ∧ quote = '"' then
      match cursor.next.lineBreak? with
      | some (_, cursor) => do
        let (space, cursor) ← space 0 cursor
        return (space.breaks, cursor)
      | none => do
        let (c, after) ← escapedChar rest
        return ([c], cursor.advance (cursor.rest.length - after.length))
    else if c = '\'' ∧ quote = '\'' then some (['\''], cursor.advance 2)
    else some ([c], cursor.next)

/-- A quote closes a scalar: the mark is there, and for single quotes it is not doubled. -/
def closes (quote : Char) : List Char → Bool
  | '\'' :: '\'' :: _ => false
  | c :: _ => c == quote
  | [] => false

/-- The pieces up to the closing quote, at most `bound` of them. -/
def quotedPieces (quote : Char) : (bound : Nat) → CursorReader (List Char)
  | 0 => fun _ => none
  | bound + 1 => fun cursor =>
    if closes quote cursor.rest then some ([], cursor.next)
    else do
      let (piece, cursor) ← quotedPiece quote cursor
      let (others, cursor) ← quotedPieces quote bound cursor
      return (piece ++ others, cursor)

/-- A scalar in quotes. -/
def quoted (quote : Char) : CursorReader String := fun cursor => do
  let (text, cursor) ← quotedPieces quote (cursor.rest.length + 1) cursor.next
  return (.ofList text, cursor)

/-! ### Without quotes -/

/-- The characters of brackets and the comma between their items. -/
def isFlowMark (c : Char) : Bool := c == ',' || c == '[' || c == ']' || c == '\x7b' || c == '\x7d'

/-- The characters up to a gap, to a colon in front of a gap, or, in brackets, to the mark of a bracket or a comma.
    There no colon stands in front of such a mark or of a question mark. -/
def wordOf? (inFlow : Bool) : List Char → Option (List Char)
  | [] => some []
  | c :: rest =>
    if isBlank c || isBreak c then some []
    else if inFlow && c == ':' && rest.head?.any fun d => d == '?' || isFlowMark d then none
    else if (c == ':' && isGap rest) || (inFlow && isFlowMark c) then some []
    else (wordOf? inFlow rest).map (c :: ·)

/-- The words of a scalar with the spaces between them, at most `bound` words; and whether a line ended behind the
    last one. In blocks the scalar ends in front of a line that starts left of a column. -/
def plainWords (inFlow : Bool) (column : Nat) : (bound : Nat) → (afterBreak : Bool) → CursorReader (List Char × Bool)
  | 0, _ => fun _ => none
  | bound + 1, afterBreak => fun cursor =>
    if cursor.isDocumentMark || cursor.sees (· == '#') then some (([], afterBreak), cursor)
    else do
      match ← wordOf? inFlow cursor.rest with
      | [] => return (([], afterBreak), cursor)
      | word =>
        let (space, cursor) ← space column (cursor.advance word.length)
        let afterBreak := space.breaks ≠ []
        if isGap cursor.rest || (!inFlow && cursor.column < column) then return ((word, afterBreak), cursor)
        else do
          let ((others, afterBreak), cursor) ← plainWords inFlow column bound afterBreak cursor
          return ((if others = [] then word else word ++ space.fold ++ others, afterBreak), cursor)

/-- A scalar without quotes, and whether a line ended behind it. -/
def plain (inFlow : Bool) (column : Nat) : CursorReader (String × Bool) := fun cursor => do
  let ((text, afterBreak), cursor) ← plainWords inFlow column (cursor.rest.length + 1) false cursor
  return ((.ofList text, afterBreak), cursor)

/-! ### Blocks of lines -/

/-- How many of the ends of lines at the end of a block count: none, the first, or all. -/
inductive Chomping where
  | strip
  | clip
  | keep
deriving DecidableEq, Repr

/-- The sign of a chomping, if there is one. -/
def chomping : CursorReader Chomping := fun cursor =>
  match cursor.rest with
  | '-' :: _ => some (.strip, cursor.next)
  | '+' :: _ => some (.keep, cursor.next)
  | _ => some (.clip, cursor)

/-- The digit of an indentation, if there is one; zero is refused. -/
def indentation : CursorReader (Option Nat) := fun cursor =>
  match cursor.rest with
  | '0' :: _ => none
  | c :: _ => if c.isDigit then some (some (c.toNat - '0'.toNat), cursor.next) else some (none, cursor)
  | [] => some (none, cursor)

/-- The chomping and the indentation of a block, in either order, and the rest of their line. -/
def blockHeader : CursorReader (Chomping × Option Nat) := fun cursor => do
  let (early, cursor) ← chomping cursor
  let (width, cursor) ← indentation cursor
  let (late, cursor) ← if early = .clip ∧ width.isSome then chomping cursor else some (early, cursor)
  return ((late, width), ← cursor.endLine?)

/-- The ends of empty lines at a cursor, at most `bound` of them, and the greatest column reached. The indentation,
    known or not, holds no tab. -/
def emptyLines (indent : Option Nat) : (bound : Nat) → (deepest : Nat) → CursorReader (Nat × List Char)
  | 0, deepest => fun cursor => some ((deepest, []), cursor)
  | bound + 1, deepest => fun cursor => do
    let spaces := (cursor.rest.takeWhile (· == ' ')).length
    let cursor := cursor.advance (match indent with
      | none => spaces
      | some indent => min spaces (indent - cursor.column))
    let deepest := max deepest cursor.column
    if cursor.sees (· == '\t') && indent.all (cursor.column < ·) then none
    else match cursor.lineBreak? with
      | none => return ((deepest, []), cursor)
      | some (c, cursor) => do
        let ((deepest, breaks), cursor) ← emptyLines indent bound deepest cursor
        return ((deepest, c :: breaks), cursor)

/-- The end of the line read last and the ends of the empty lines behind it. -/
structure LineEnd where
  first : List Char := []
  more : List Char := []

/-- What stands for the ends of lines between two lines of a block. Folding makes one line feed a space and drops the
    first of several, unless one of the two lines starts with a blank. -/
def LineEnd.fold (ends : LineEnd) (folded : Bool) : List Char :=
  if folded && ends.first == ['\n'] then (if ends.more = [] then [' '] else ends.more) else ends.first ++ ends.more

/-- The lines of a block, at most `bound` of them, and the ends of lines behind the last one. -/
def blockLines (folded : Bool) (indent : Nat) : (bound : Nat) → (blankBefore : Bool) → LineEnd →
    CursorReader (List Char × LineEnd)
  | 0, _, _ => fun _ => none
  | bound + 1, blankBefore, ends => fun cursor =>
    if cursor.column ≠ indent ∨ cursor.rest = [] then some (([], ends), cursor)
    else do
      let blank := cursor.sees isBlank
      let (line, cursor) := cursor.takeWhile (!isBreak ·)
      let (first, cursor) := match cursor.lineBreak? with
        | some (c, cursor) => ([c], cursor)
        | none => ([], cursor)
      let ((_, more), cursor) ← emptyLines (some indent) (cursor.rest.length + 1) 0 cursor
      let ((others, last), cursor) ← blockLines folded indent bound blank ⟨first, more⟩ cursor
      return ((ends.fold (folded && !blankBefore && !blank) ++ line ++ others, last), cursor)

/-- A block of lines behind its mark. It is indented deeper than the block around it, if there is one; where no digit
    says how deep, its first line does. -/
def block (folded : Bool) (outer : Option Nat) : CursorReader String := fun cursor => do
  let ((chomping, width), cursor) ← blockHeader cursor.next
  let known := width.map (outer.getD 0 + ·)
  let ((deepest, breaks), cursor) ← emptyLines known (cursor.rest.length + 1) 0 cursor
  let indent := known.getD (max deepest ((outer.map (· + 1)).getD 1))
  let ((text, ends), cursor) ← blockLines folded indent (cursor.rest.length + 1) false ⟨[], breaks⟩ cursor
  let tail := match chomping with
    | .strip => []
    | .clip => ends.first
    | .keep => ends.first ++ ends.more
  return (.ofList (text ++ tail), cursor)

end GridFilter.Yaml
