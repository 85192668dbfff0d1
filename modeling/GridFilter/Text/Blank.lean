/-! Blank characters, trimming, and the pieces of a text between separators. A character is blank when it has
    the White_Space property of Unicode, so that a no-break space is trimmed like any other space. -/

namespace GridFilter.Text

/-! ### Blank characters -/

/-- The characters with the White_Space property. -/
def isBlank (c : Char) : Bool :=
  let n := c.val.toNat
  n == 0x20 || (0x09 ≤ n && n ≤ 0x0D) || n == 0x85 || n == 0xA0 || n == 0x1680 || (0x2000 ≤ n && n ≤ 0x200A) ||
    n == 0x2028 || n == 0x2029 || n == 0x202F || n == 0x205F || n == 0x3000

/-- A text without the blanks in front of it. -/
def trimStart (text : List Char) : List Char := text.dropWhile isBlank

/-- A text without the blanks behind it. -/
def trimEnd (text : List Char) : List Char := (text.reverse.dropWhile isBlank).reverse

/-- A text without the blanks on either side. -/
def trim (text : List Char) : List Char := trimEnd (trimStart text)

/-- A string without the blanks on either side. -/
def trimmed (text : String) : String := .ofList (trim text.toList)

/-- Nothing but blanks. -/
def isBlankText (text : String) : Bool := text.toList.all isBlank

/-! ### Pieces between separators -/

/-- The pieces of a text between the characters that satisfy `separates`; always at least one. -/
def pieces (separates : Char → Bool) : List Char → List (List Char)
  | [] => [[]]
  | c :: rest =>
    if separates c then [] :: pieces separates rest
    else match pieces separates rest with
      | [] => [[c]]
      | first :: others => (c :: first) :: others

/-- The pieces of a text between its commas. -/
def commaPieces (text : List Char) : List (List Char) := pieces (· == ',') text

/-- The trimmed items of a comma-separated list, blank items left out. -/
def commaItems (text : String) : List String :=
  ((commaPieces text.toList).map trim).filter (· ≠ []) |>.map String.ofList

/-- The two sides of the first occurrence of `separator`, or `none` when there is none. -/
def cut? (separator : Char) : List Char → Option (List Char × List Char)
  | [] => none
  | c :: rest => if c = separator then some ([], rest) else (cut? separator rest).map fun (a, b) => (c :: a, b)

/-! ### Sizes and spellings -/

/-- The number of bytes a text takes in UTF-8. -/
def byteSize : List Char → Nat
  | [] => 0
  | c :: rest => c.utf8Size + byteSize rest

/-- A text with its ASCII letters in lower case. -/
def lower (text : String) : String := .ofList (text.toList.map Char.toLower)

/-- The texts `a` and `b` differ at most in the case of ASCII letters. -/
def sameLetters (a b : String) : Bool := lower a == lower b

/-- Names with one more behind them, unless it is among them. -/
def noted (known : List String) (name : String) : List String := if name ∈ known then known else known ++ [name]

/-- The names of a list in order, each at its first place only. -/
def distinct (names : List String) : List String := names.foldl noted []

end GridFilter.Text
