import GridFilter.Number.Decimal
import GridFilter.Table
import GridFilter.Text.Pattern

/-! The two ways to write placeholders. In the inline dialect a placeholder names what it stands for, `{Company.ID}`.
    In the positional one it holds a number, and sections behind the filter list the names that the numbers count:
    `CompanyID = {0} | [Company.ID]`. A text is brought into the inline dialect before it is read. -/

namespace GridFilter.Dialect

open Text

/-! ### Names -/

/-- A filter text in the inline dialect, and the names of its placeholders in order. -/
structure Canonical where
  normalized : String
  names : List String
deriving DecidableEq, Repr

/-- The names between the commas of a section. -/
def sectionNames (body : List Char) : List (List Char) := (commaPieces body).map trim

/-- The names that the sections of a text bind, counted from zero across all of them. -/
def boundNames (text : List Char) : List (List Char) := (foundIn (segments section? text)).flatMap sectionNames

/-- The names in the braces of a text. -/
def inlineNames (text : List Char) : List (List Char) := (foundIn (segments (braces notClosing) text)).map trim

/-- The names that are not blank, each at its first place only. -/
def namesOf (names : List (List Char)) : List String :=
  distinct ((names.filter (· ≠ [])).map String.ofList)

/-! ### Bringing a text into the inline dialect -/

/-- The number that ASCII digits spell; digits of other scripts count nothing. -/
def index? (digits : List Char) : Option Nat :=
  if digits.all Char.isDigit then some (Decimal.ofDigits digits) else none

/-- What stands for a numbered placeholder: the name bound to the number, or a name made up from the number where
    none is bound or the bound one is blank. -/
def namedFor (bound : List (List Char)) (digits : List Char) : List Char :=
  match (index? digits).bind (bound[·]?) with
  | some (c :: name) => inBraces (c :: name)
  | _ => inBraces ("placeholder".toList ++ digits)

/-- A text with its numbered placeholders named. -/
def nameNumbered (bound : List (List Char)) (text : List Char) : List Char :=
  fill (namedFor bound) (segments (braces isDecimal) text)

/-- A filter text in the inline dialect. A text without a binding section is in it already; of one with sections, the
    part in front of the first section is kept, without blanks on either side. -/
def canonicalize (text : String) : Canonical :=
  let sections := segments section? text.toList
  match foundIn sections with
  | [] => ⟨text, namesOf (inlineNames text.toList)⟩
  | _ =>
    let bound := boundNames text.toList
    ⟨.ofList (nameNumbered bound (trim (beforeFound sections))), namesOf bound⟩

/-! ### Putting text in the place of placeholders -/

/-- A text in which every word in braces that `fixed` has an entry for is replaced by that entry. -/
def fillFixed (fixed : Table String) (text : List Char) : List Char :=
  fill (fun word => match fixed.get? (.ofList word) with
    | some value => value.toList
    | none => inBraces word) (segments (braces isWord) text)

/-- The names of a section with the next values in their places; a name without a value stays in braces. -/
def deal : List (List Char) → List String → List (List Char)
  | [], _ => []
  | _ :: names, value :: values => value.toList :: deal names values
  | name :: names, [] => inBraces (trim name) :: deal names []

/-- Texts one after the other with a comma and a blank between them. -/
def commaJoined (texts : List (List Char)) : List Char := [',', ' '].intercalate texts

/-- A text with the values dealt out to the names of its sections, in order and each once. -/
def dealOut : List (Segment (List Char)) → List String → List Char
  | [], _ => []
  | .plain c :: rest, values => c :: dealOut rest values
  | .found body :: rest, values =>
    let names := commaPieces body
    commaJoined (deal names values) ++ dealOut rest (values.drop names.length)

/-- A filter text with entries of `fixed` for words in braces, and then values for the names in its sections. -/
def replacePlaceholders (text : String) (fixed : Table String) (values : List String) : String :=
  .ofList (dealOut (segments section? (fillFixed fixed text.toList)) values)

end GridFilter.Dialect
