import GridFilter.Text.Pattern

/-! Telling whole queries from filters. A text that has the words `SELECT` and then `FROM`, or the word `JOIN`,
    outside its string literals is a query, and is no filter at all. -/

namespace GridFilter.WholeQuery

open Text

/-- A text with the contents of its string literals left out. A literal goes from a quote to the next quote that is
    not doubled, or to the end of the text. -/
def withoutLiterals : (inside : Bool) → List Char → List Char
  | _, [] => []
  | false, '\'' :: rest => '\'' :: '\'' :: withoutLiterals true rest
  | false, c :: rest => c :: withoutLiterals false rest
  | true, '\'' :: '\'' :: rest => withoutLiterals true rest
  | true, '\'' :: rest => withoutLiterals false rest
  | true, _ :: rest => withoutLiterals true rest

/-- The longest runs of word characters. -/
def words (text : List Char) : List (List Char) := (pieces (!isWord ·) text).filter (· ≠ [])

/-- A letter without its case; the long s is an s. -/
def fold (c : Char) : Char := if c = 'ſ' then 'S' else c.toUpper

/-- A word is the given one in capitals. -/
def isKeyword (keyword : List Char) (word : List Char) : Bool := word.map fold == keyword

/-- Some word is `JOIN`, or `SELECT` and later `FROM`. -/
def hasQueryWords (words : List (List Char)) : Bool :=
  words.any (isKeyword ['J', 'O', 'I', 'N']) ||
    (words.dropWhile (!isKeyword ['S', 'E', 'L', 'E', 'C', 'T'] ·)).any (isKeyword ['F', 'R', 'O', 'M'])

/-- The text is a whole query. -/
def isWholeQuery (text : String) : Bool := hasQueryWords (words (withoutLiterals false text.toList))

end GridFilter.WholeQuery
