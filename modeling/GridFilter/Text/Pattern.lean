import GridFilter.Text.Blank
import GridFilter.Text.Word

/-! Places in a text where a pattern stands. A text is read from left to right; where the pattern matches, the match
    is taken and the reading goes on behind it, and every other character is a segment of its own. -/

namespace GridFilter.Text

/-! ### Segments -/

/-- A segment of a text: a character that belongs to no match, or what a match found. -/
inductive Segment (α : Type) where
  | plain (c : Char)
  | found (a : α)
deriving Repr

/-- Matches at the front of a text: what is found, and how many characters the match takes. -/
abbrev Pattern (α : Type) := List Char → Option (α × Nat)

/-- The segments of a text, of which the first `skip` characters belong to a match already taken. -/
def segmentsFrom {α : Type} (pattern : Pattern α) : (skip : Nat) → List Char → List (Segment α)
  | _, [] => []
  | skip + 1, _ :: rest => segmentsFrom pattern skip rest
  | 0, c :: rest =>
    match pattern (c :: rest) with
    | some (a, size) => .found a :: segmentsFrom pattern (size - 1) rest
    | none => .plain c :: segmentsFrom pattern 0 rest

/-- The segments of a text. -/
def segments {α : Type} (pattern : Pattern α) (text : List Char) : List (Segment α) := segmentsFrom pattern 0 text

/-- What the matches in a list of segments found, in order. -/
def foundIn {α : Type} : List (Segment α) → List α
  | [] => []
  | .plain _ :: rest => foundIn rest
  | .found a :: rest => a :: foundIn rest

/-- The characters in front of the first match. -/
def beforeFound {α : Type} : List (Segment α) → List Char
  | .plain c :: rest => c :: beforeFound rest
  | _ => []

/-- The text in which `f` has replaced what each match found. -/
def fill {α : Type} (f : α → List Char) (segments : List (Segment α)) : List Char :=
  segments.flatMap fun
    | .plain c => [c]
    | .found a => f a

/-! ### Braces and binding sections -/

/-- The text between a pair of braces at the front: at least one character, all of them allowed. -/
def braced? (allowed : Char → Bool) : List Char → Option (List Char × List Char)
  | '\x7b' :: rest =>
    match rest.takeWhile allowed, rest.dropWhile allowed with
    | [], _ => none
    | body, '\x7d' :: after => some (body, after)
    | _, _ => none
  | _ => none

/-- Every character but the closing brace. -/
def notClosing (c : Char) : Bool := c != '\x7d'

/-- A text between braces, as a pattern. -/
def braces (allowed : Char → Bool) : Pattern (List Char) := fun text =>
  (braced? allowed text).map fun (body, _) => (body, body.length + 2)

/-- A text in braces. -/
def inBraces (text : List Char) : List Char := '\x7b' :: (text ++ ['\x7d'])

/-- A binding section: a bar, blanks, and a text in square brackets that holds no closing one. -/
def section? : Pattern (List Char)
  | '|' :: rest =>
    match rest.dropWhile isBlank with
    | '[' :: inner =>
      match inner.takeWhile (· != ']'), inner.dropWhile (· != ']') with
      | body, ']' :: _ => some (body, (rest.takeWhile isBlank).length + body.length + 3)
      | _, _ => none
    | _ => none
  | _ => none

end GridFilter.Text
