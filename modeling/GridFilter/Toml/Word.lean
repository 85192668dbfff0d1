import GridFilter.Toml.Text

/-! The values of TOML that are single words: truth values, numbers, and moments. -/

namespace GridFilter.Toml

/-! ### Numbers -/

/-- Digits with single underscores between them, the underscores left out. -/
def joined? (digits : List Char) : Option (List Char) :=
  let groups := Text.pieces (· == '_') digits
  if groups.all (· ≠ []) then some groups.flatten else none

/-- Decimal digits, at least one. -/
def digits? (word : List Char) : Option (List Char) :=
  (joined? word).filter fun digits => digits ≠ [] && digits.all Char.isDigit

/-- Decimal digits without a needless zero in front. -/
def whole? (word : List Char) : Option (List Char) :=
  (digits? word).filter fun digits => digits.length = 1 || digits.head? ≠ some '0'

/-- A whole number: with an optional sign, or without one in the base that its first two characters tell. -/
def integer? (word : List Char) : Option Int :=
  match word with
  | '0' :: 'x' :: digits => (joined? digits).bind fun digits => (Radix.ofDigits? 16 digits).map Int.ofNat
  | '0' :: 'o' :: digits => (joined? digits).bind fun digits => (Radix.ofDigits? 8 digits).map Int.ofNat
  | '0' :: 'b' :: digits => (joined? digits).bind fun digits => (Radix.ofDigits? 2 digits).map Int.ofNat
  | _ => do
    let (negative, digits) := Decimal.signOf word
    let n := Decimal.ofDigits (← whole? digits)
    return if negative then -(n : Int) else n

/-- The power of ten behind an `e`, nothing where there is none. -/
def power? : List Char → Option (Option Int)
  | [] => some none
  | _ :: word => do
    let (negative, digits) := Decimal.signOf word
    let n := Decimal.ofDigits (← digits? digits)
    return some (if negative then -(n : Int) else n)

/-- The whole digits and the digits behind the point, nothing where there is no point. -/
def mantissa? (word : List Char) : Option (List Char × Option (List Char)) :=
  match Text.cut? '.' word with
  | some (whole, fraction) => do return (← whole? whole, some (← digits? fraction))
  | none => do return (← whole? word, none)

/-- The character that starts a power of ten. -/
def isPowerMark (c : Char) : Bool := c == 'e' || c == 'E'

/-- A number with a fraction, an exponent or both, behind its sign. -/
def decimal? (negative : Bool) (word : List Char) : Option Toml := do
  let (whole, fraction) ← mantissa? (word.takeWhile (!isPowerMark ·))
  let power ← power? (word.dropWhile (!isPowerMark ·))
  if fraction.isNone ∧ power.isNone then none
  else
    match Decimal.assemble negative whole (fraction.getD []) (power.getD 0) with
    | .infinity _ => return .tooLarge
    | x => return .float x

/-- A number with a fraction or an exponent, or one of the words for infinity and for what is not a number. -/
def float? (word : List Char) : Option Toml :=
  match Decimal.signOf word with
  | (negative, ['i', 'n', 'f']) => some (.float (.infinity negative))
  | (_, ['n', 'a', 'n']) => some (.float .nan)
  | (negative, word) => decimal? negative word

/-! ### Moments -/

/-- Two digits that spell a number up to `greatest`, and what follows them. -/
def pair (greatest : Nat) : Reader Nat
  | a :: b :: rest => do
    let n ← Radix.ofDigits? 10 [a, b]
    if n ≤ greatest then some (n, rest) else none
  | _ => none

/-- The count of days in a month. -/
def daysIn (year month : Nat) : Nat :=
  if month = 2 then (if year % 4 = 0 ∧ (year % 100 ≠ 0 ∨ year % 400 = 0) then 29 else 28)
  else if month = 4 ∨ month = 6 ∨ month = 9 ∨ month = 11 then 30
  else 31

/-- What follows a date: four digits, two and two with hyphens between them, which name a day. -/
def date? (text : List Char) : Option (List Char) := do
  let (century, rest) ← pair 99 text
  let (year, rest) ← pair 99 rest
  match rest with
  | '-' :: rest => do
    let (month, rest) ← pair 12 rest
    match rest with
    | '-' :: rest => do
      let (day, rest) ← pair (daysIn (100 * century + year) month) rest
      if month = 0 ∨ day = 0 then none else some rest
    | _ => none
  | _ => none

/-- What follows the fraction of a second, if there is one. -/
def fraction? : List Char → Option (List Char)
  | '.' :: rest => if rest.head?.any Char.isDigit then some (rest.dropWhile Char.isDigit) else none
  | rest => some rest

/-- What follows hours and minutes, two digits each. -/
def clock? (text : List Char) : Option (List Char) := do
  let (_, rest) ← pair 23 text
  match rest with
  | ':' :: rest => (pair 59 rest).map Prod.snd
  | _ => none

/-- What follows a time of day. Seconds may be missing, and a minute may have a leap second. -/
def time? (text : List Char) : Option (List Char) := do
  match ← clock? text with
  | ':' :: rest => do
    let (_, rest) ← pair 60 rest
    fraction? rest
  | rest => return rest

/-- The distance of a zone from universal time, or nothing. -/
def isZone : List Char → Bool
  | [] | ['Z'] | ['z'] => true
  | '+' :: rest | '-' :: rest => clock? rest = some []
  | _ => false

/-- A date, a time, or a date and a time with an optional zone. -/
def isMoment (word : List Char) : Bool :=
  match date? word with
  | some [] => true
  | some (c :: rest) => (c == 'T' || c == 't' || c == ' ') && (time? rest).any isZone
  | none => time? word = some []

/-! ### Words -/

/-- The characters that end a word. -/
def endsWord (c : Char) : Bool :=
  isBlank c || isControl c || c == ',' || c == ']' || c == '\x7d' || c == '#'

/-- The word in front of a text, and what follows it. A date and a time that one space parts are one word. -/
def wordOf (text : List Char) : List Char × List Char :=
  let word := text.takeWhile (!endsWord ·)
  match date? word, text.dropWhile (!endsWord ·) with
  | some [], ' ' :: rest =>
    if rest.head?.any Char.isDigit then (word ++ ' ' :: rest.takeWhile (!endsWord ·), rest.dropWhile (!endsWord ·))
    else (word, ' ' :: rest)
  | _, rest => (word, rest)

/-- The value of a word. -/
def ofWord? (word : List Char) : Option Toml :=
  if word = "true".toList then some (.boolean true)
  else if word = "false".toList then some (.boolean false)
  else if isMoment word then some .moment
  else (integer? word).map .integer <|> float? word

end GridFilter.Toml
