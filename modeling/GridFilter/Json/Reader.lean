import GridFilter.Json.Basic
import GridFilter.Number.Decimal
import GridFilter.Table

/-! Reading JSON. Brackets nest at most 127 deep; a key that is repeated keeps its first place and its last value. A
    whole number outside 64 bits is double precision, and so is minus zero; a number too large for that is refused. -/

namespace GridFilter.Json

/-! ### Blanks and strings -/

/-- The blanks of JSON. -/
def isSpace (c : Char) : Bool := c == ' ' || c == '\t' || c == '\n' || c == '\r'

/-- A text without the blanks in front of it. -/
def skip (text : List Char) : List Char := text.dropWhile isSpace

/-- Four hexadecimal digits. -/
def hexUnit : Reader Nat
  | a :: b :: c :: d :: rest => do
    return (← Radix.ofDigits? 16 [a, b, c, d], rest)
  | _ => none

/-- The character after a backslash and `u`: one unit, or two that make a pair of surrogates. -/
def unicodeEscape : Reader Char := fun text => do
  let (high, rest) ← hexUnit text
  if 0xD800 ≤ high ∧ high < 0xDC00 then
    match rest with
    | '\\' :: 'u' :: rest => do
      let (low, rest) ← hexUnit rest
      if 0xDC00 ≤ low ∧ low < 0xE000 then
        return (Char.ofNat (0x10000 + (high - 0xD800) * 0x400 + (low - 0xDC00)), rest)
      else none
    | _ => none
  else if 0xDC00 ≤ high ∧ high < 0xE000 then none
  else return (Char.ofNat high, rest)

/-- The character that the text after a backslash stands for. -/
def escapedChar : Reader Char
  | '"' :: rest => some ('"', rest)
  | '\\' :: rest => some ('\\', rest)
  | '/' :: rest => some ('/', rest)
  | 'b' :: rest => some ('\x08', rest)
  | 'f' :: rest => some ('\x0c', rest)
  | 'n' :: rest => some ('\n', rest)
  | 'r' :: rest => some ('\r', rest)
  | 't' :: rest => some ('\t', rest)
  | 'u' :: rest => unicodeEscape rest
  | _ => none

/-- The characters up to the closing quote; control characters have to be escaped. The bound is the count of
    characters that may still be read. -/
def stringBody : Nat → Reader (List Char)
  | 0, _ => none
  | _ + 1, [] => none
  | _ + 1, '"' :: rest => some ([], rest)
  | bound + 1, '\\' :: rest => do
    let (c, rest) ← escapedChar rest
    let (body, rest) ← stringBody bound rest
    return (c :: body, rest)
  | bound + 1, c :: rest =>
    if c.toNat < 0x20 then none
    else do
      let (body, rest) ← stringBody bound rest
      return (c :: body, rest)

/-- A string in quotes. -/
def quoted : Reader String
  | '"' :: rest => do
    let (body, rest) ← stringBody (rest.length + 1) rest
    return (.ofList body, rest)
  | _ => none

/-! ### Numbers -/

/-- Digits, at least one. -/
def someDigits : Reader (List Char) := fun text =>
  match Decimal.digitsOf text with
  | ([], _) => none
  | (digits, rest) => some (digits, rest)

/-- Digits without a needless zero in front. -/
def wholePart : Reader (List Char) := fun text => do
  let (digits, rest) ← someDigits text
  match digits with
  | '0' :: _ :: _ => none
  | _ => return (digits, rest)

/-- The digits after a point, if there is one. -/
def fractionPart : Reader (Option (List Char))
  | '.' :: rest => do
    let (digits, rest) ← someDigits rest
    return (some digits, rest)
  | rest => some (none, rest)

/-- The power of ten after an `e`, if there is one. -/
def exponentPart : Reader (Option Int)
  | 'e' :: rest | 'E' :: rest => do
    let (negative, rest) := Decimal.signOf rest
    let (digits, rest) ← someDigits rest
    let n := Decimal.ofDigits digits
    return (some (if negative then -(n : Int) else n), rest)
  | rest => some (none, rest)

/-- A whole number: of 64 bits with a sign or without one, else double precision. -/
def ofWhole (negative : Bool) (n : Nat) : Json :=
  if negative then
    if n = 0 ∨ Nat.pow 2 63 < n then .double (.ofRatio true n 1) else .integer (-n)
  else if n < UInt64.size then .integer n
  else .double (.ofRatio false n 1)

/-- A number that is written with a fraction or an exponent; one too large for double precision is refused. -/
def ofParts (negative : Bool) (whole fraction : List Char) (exponent : Int) : Option Json :=
  let x := Decimal.assemble negative whole fraction exponent
  if x.isFinite then some (.double x) else none

/-- A number. -/
def number : Reader Json := fun text => do
  let (negative, rest) := match text with
    | '-' :: rest => (true, rest)
    | _ => (false, text)
  let (whole, rest) ← wholePart rest
  let (fraction, rest) ← fractionPart rest
  let (exponent, rest) ← exponentPart rest
  match fraction, exponent with
  | none, none =>
    match ofWhole negative (Decimal.ofDigits whole) with
    | .double x => if x.isFinite then return (.double x, rest) else none
    | json => return (json, rest)
  | _, _ => do
    let json ← ofParts negative whole (fraction.getD []) (exponent.getD 0)
    return (json, rest)

/-! ### Lists and objects -/

/-- Items separated by commas, up to the closing bracket. The bound is the count of items that may still be read. -/
def itemsUpTo {α : Type} (item : Reader α) (closing : Char) : Nat → Reader (List α)
  | 0, _ => none
  | bound + 1, text => do
    let (first, rest) ← item text
    match skip rest with
    | [] => none
    | c :: rest =>
      if c = ',' then do
        let (others, rest) ← itemsUpTo item closing bound rest
        return (first :: others, rest)
      else if c = closing then return ([first], rest)
      else none

/-- What stands behind an opening bracket: nothing, or items separated by commas, and the closing bracket. -/
def bracketed {α : Type} (item : Reader α) (closing : Char) : Reader (List α) := fun text =>
  match skip text with
  | [] => none
  | c :: rest =>
    if c = closing then some ([], rest) else itemsUpTo item closing (text.length + 1) (c :: rest)

/-- A key, a colon and a value. -/
def entry (value : Reader Json) : Reader (String × Json) := fun text => do
  let (key, rest) ← quoted (skip text)
  match skip rest with
  | ':' :: rest => do
    let (json, rest) ← value rest
    return ((key, json), rest)
  | _ => none

/-- A value that is not a list and not an object. -/
def scalar : Reader Json
  | 'n' :: 'u' :: 'l' :: 'l' :: rest => some (.null, rest)
  | 't' :: 'r' :: 'u' :: 'e' :: rest => some (.bool true, rest)
  | 'f' :: 'a' :: 'l' :: 's' :: 'e' :: rest => some (.bool false, rest)
  | '"' :: rest => (quoted ('"' :: rest)).map fun (s, rest) => (.string s, rest)
  | text => number text

/-- A value whose brackets nest at most so deep. -/
def value : (nesting : Nat) → Reader Json
  | 0 => fun text => scalar (skip text)
  | nesting + 1 => fun text =>
    match skip text with
    | '[' :: rest => (bracketed (value nesting) ']' rest).map fun (items, rest) => (.array items, rest)
    | '\x7b' :: rest =>
      (bracketed (entry (value nesting)) '\x7d' rest).map fun (entries, rest) =>
        (.object (Table.ofEntries entries), rest)
    | text => scalar text

/-- How deep brackets may nest. -/
def maxNesting : Nat := 127

/-- The value that a whole text spells. -/
def parse? (text : String) : Option Json := do
  let (json, rest) ← value maxNesting text.toList
  if skip rest = [] then some json else none

end GridFilter.Json
