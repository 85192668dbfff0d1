import GridFilter.Yaml.Scalar
import GridFilter.Yaml.Token

/-! The tokens of YAML that consist of a mark and a name: directives, tags, anchors and aliases. -/

namespace GridFilter.Yaml

/-! ### Names -/

/-- The name behind the mark of an anchor or an alias; a gap or a mark follows it. -/
def anchorName : CursorReader String := fun cursor =>
  let (name, cursor) := cursor.next.takeWhile isNameChar
  if name = [] then none
  else if isGap cursor.rest || cursor.sees (['?', ':', ',', ']', '\x7d', '%', '@', '\x60'].contains ·) then
    some (.ofList name, cursor)
  else none

/-! ### Tags -/

/-- The characters of a tag besides those of names. -/
def isTagMark (c : Char) : Bool :=
  [';', '/', '?', ':', '@', '&', '=', '+', '$', '.', '!', '~', '*', '\'', '(', ')'].contains c

/-- The characters of a tag that stands between angle brackets or behind a handle in a directive. -/
def isWideMark (c : Char) : Bool := c == ',' || c == '[' || c == ']'

/-- How many bytes a character has whose first byte is this one. -/
def byteCount? (first : Nat) : Option Nat :=
  if first < 0x80 then some 1
  else if first < 0xC0 then none
  else if first < 0xE0 then some 2
  else if first < 0xF0 then some 3
  else if first < 0xF8 then some 4
  else none

/-- A byte that is written as a percent sign and two hexadecimal digits. -/
def escapedByte : CursorReader Nat := fun cursor =>
  match cursor.rest with
  | '%' :: a :: b :: _ => do return (← Radix.ofDigits? 16 [a, b], cursor.advance 3)
  | _ => none

/-- The value of the bytes that continue a character. -/
def moreBytes : (count : Nat) → (value : Nat) → CursorReader Nat
  | 0, value => fun cursor => some (value, cursor)
  | count + 1, value => fun cursor => do
    let (byte, cursor) ← escapedByte cursor
    if 0x80 ≤ byte ∧ byte < 0xC0 then moreBytes count (value * 0x40 + (byte - 0x80)) cursor else none

/-- A character that is written as its bytes. -/
def escapedBytes : CursorReader Char := fun cursor => do
  let (first, cursor) ← escapedByte cursor
  let count ← byteCount? first
  let lead := if count = 1 then first else first % Nat.pow 2 (7 - count)
  let (value, cursor) ← moreBytes (count - 1) lead cursor
  return (.ofNat value, cursor)

/-- The characters of a tag, at most `bound` of them. -/
def tagChars (isWide : Bool) : (bound : Nat) → CursorReader (List Char)
  | 0 => fun cursor => some ([], cursor)
  | bound + 1 => fun cursor =>
    match cursor.rest with
    | [] => some ([], cursor)
    | c :: _ =>
      if c = '%' then do
        let (c, cursor) ← escapedBytes cursor
        let (others, cursor) ← tagChars isWide bound cursor
        return (c :: others, cursor)
      else if isNameChar c || isTagMark c || (isWide && isWideMark c) then do
        let (others, cursor) ← tagChars isWide bound cursor.next
        return (c :: others, cursor)
      else some ([], cursor)

/-- The characters of a tag. -/
def tagText (isWide : Bool) : CursorReader (List Char) := fun cursor => tagChars isWide cursor.rest.length cursor

/-- The characters of a tag, at least one. -/
def someTagText (isWide : Bool) : CursorReader (List Char) := fun cursor =>
  (tagText isWide cursor).filter (·.1 ≠ [])

/-- An exclamation mark, a name, and another mark behind it if there is one. -/
def tagHandle : CursorReader (List Char) := fun cursor =>
  if !cursor.sees (· == '!') then none
  else
    let (name, cursor) := cursor.next.takeWhile isNameChar
    if cursor.sees (· == '!') then some ('!' :: (name ++ ['!']), cursor.next) else some ('!' :: name, cursor)

/-- The text has a mark at both its ends. -/
def isClosedHandle (handle : List Char) : Bool := 2 ≤ handle.length && handle.getLast? == some '!'

/-- A tag between angle brackets, which has no handle. -/
def wholeTag : CursorReader Token := fun cursor => do
  let (text, cursor) ← someTagText true (cursor.advance 2)
  if cursor.sees (· == '>') then return (.tag "" (.ofList text), cursor.next) else none

/-- A tag with a handle; a single mark by itself is the whole tag. -/
def shortTag : CursorReader Token := fun cursor => do
  let (handle, cursor) ← tagHandle cursor
  if isClosedHandle handle then
    let (text, cursor) ← someTagText false cursor
    return (.tag (.ofList handle) (.ofList text), cursor)
  else
    let (text, cursor) ← tagText false cursor
    match handle.tail ++ text with
    | [] => return (.tag "" "!", cursor)
    | suffix => return (.tag "!" (.ofList suffix), cursor)

/-- A tag; a gap follows it, or in brackets a comma. -/
def tag (inFlow : Bool) : CursorReader Token := fun cursor => do
  let (token, cursor) ← match cursor.rest with
    | _ :: '<' :: _ => wholeTag cursor
    | _ => shortTag cursor
  if isGap cursor.rest || (inFlow && cursor.sees (· == ',')) then return (token, cursor) else none

/-! ### Directives -/

/-- A number of at most nine digits. -/
def shortNumber : CursorReader Nat := fun cursor => do
  let (digits, cursor) := cursor.takeWhile Char.isDigit
  if 9 < digits.length then none else return (← Radix.ofDigits? 10 digits, cursor)

/-- The two numbers of a version with a point between them. -/
def version : CursorReader Token := fun cursor => do
  let (major, cursor) ← shortNumber (cursor.skipWhile isBlank)
  if !cursor.sees (· == '.') then none
  else
    let (minor, cursor) ← shortNumber cursor.next
    return (.version major minor, cursor)

/-- A handle and what it stands for. -/
def handleMeaning : CursorReader Token := fun cursor => do
  let (handle, cursor) ← tagHandle (cursor.skipWhile isBlank)
  if !(isClosedHandle handle || handle == ['!']) || !cursor.sees isBlank then none
  else
    let (text, cursor) ← someTagText true (cursor.skipWhile isBlank)
    if isGap cursor.rest then return (.handle (.ofList handle) (.ofList text), cursor) else none

/-- A directive, and the rest of its line. -/
def directive : CursorReader Token := fun cursor => do
  let (name, cursor) := cursor.next.takeWhile isNameChar
  if !isGap cursor.rest then none
  else
    let (token, cursor) ←
      if name = "YAML".toList then version cursor
      else if name = "TAG".toList then handleMeaning cursor
      else none
    return (token, ← cursor.endLine?)

end GridFilter.Yaml
