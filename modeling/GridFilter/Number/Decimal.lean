import GridFilter.Number.Binary64
import GridFilter.Text.Blank

/-! Reading numbers written in decimal: whole numbers of 64 bits, and double precision numbers with an optional
    fraction and exponent, or the words for infinity and for what is not a number. Digits are also read in bases up to
    sixteen, as are the characters whose code points they spell. -/

namespace GridFilter.Decimal

/-! ### Digits -/

/-- The number that a row of ASCII digits spells. -/
def ofDigits (digits : List Char) : Nat := digits.foldl (fun n c => 10 * n + (c.toNat - '0'.toNat)) 0

/-- The longest row of ASCII digits in front of a text, and what follows it. -/
def digitsOf (text : List Char) : List Char × List Char :=
  (text.takeWhile Char.isDigit, text.dropWhile Char.isDigit)

/-- A sign in front of a text, `true` for minus, and what follows it. -/
def signOf : List Char → Bool × List Char
  | '-' :: rest => (true, rest)
  | '+' :: rest => (false, rest)
  | rest => (false, rest)

/-- A natural number: digits with an optional plus. -/
def nat? (text : List Char) : Option Nat :=
  let digits := match text with
    | '+' :: rest => rest
    | _ => text
  if digits ≠ [] && digits.all Char.isDigit then some (ofDigits digits) else none

/-- A whole number of 64 bits: digits with an optional sign. -/
def int? (text : List Char) : Option Int64 :=
  let (negative, digits) := signOf text
  if digits ≠ [] && digits.all Char.isDigit then
    let n : Int := if negative then -(ofDigits digits : Int) else ofDigits digits
    if Int64.minValue.toInt ≤ n ∧ n ≤ Int64.maxValue.toInt then some (Int64.ofInt n) else none
  else none

/-! ### Double precision -/

/-- An exponent: nothing, or an `e` with digits behind an optional sign. -/
def exponent? : List Char → Option Int
  | [] => some 0
  | c :: rest =>
    if c = 'e' ∨ c = 'E' then
      let (negative, digits) := signOf rest
      if digits ≠ [] && digits.all Char.isDigit then
        some (if negative then -(ofDigits digits : Int) else ofDigits digits)
      else none
    else none

/-- A fraction: the digits after a point, and what follows them. -/
def fractionOf : List Char → List Char × List Char
  | '.' :: rest => digitsOf rest
  | rest => ([], rest)

/-- The number spelled by digits around a point, with a sign and an exponent. -/
def assemble (negative : Bool) (whole fraction : List Char) (exponent : Int) : Binary64 :=
  .ofDecimal negative (ofDigits (whole ++ fraction)) (exponent - fraction.length)

/-- Digits with an optional point, at least one of them on either side of it, and an optional exponent. -/
def unsigned? (negative : Bool) (text : List Char) : Option Binary64 :=
  let (whole, rest) := digitsOf text
  let (fraction, rest) := fractionOf rest
  if whole = [] ∧ fraction = [] then none
  else (exponent? rest).map (assemble negative whole fraction)

/-- A double precision number: a sign, then digits or one of the words `inf`, `infinity` and `nan` in any case. -/
def double? (text : List Char) : Option Binary64 :=
  let (negative, rest) := signOf text
  match rest.map Char.toLower with
  | ['i', 'n', 'f'] | ['i', 'n', 'f', 'i', 'n', 'i', 't', 'y'] => some (.infinity negative)
  | ['n', 'a', 'n'] => some .nan
  | _ => unsigned? negative rest

end GridFilter.Decimal

namespace GridFilter

/-- Takes a value off the front of a text, or refuses it. -/
abbrev Reader (α : Type) := List Char → Option (α × List Char)

namespace Radix

/-! ### Digits in other bases -/

/-- The value of a hexadecimal digit; letters count in either case. -/
def hexDigit? (c : Char) : Option Nat :=
  if '0' ≤ c ∧ c ≤ '9' then some (c.toNat - '0'.toNat)
  else if 'a' ≤ c ∧ c ≤ 'f' then some (c.toNat - 'a'.toNat + 10)
  else if 'A' ≤ c ∧ c ≤ 'F' then some (c.toNat - 'A'.toNat + 10)
  else none

/-- The value of a digit of a base. -/
def digit? (base : Nat) (c : Char) : Option Nat := (hexDigit? c).filter (· < base)

/-- The number that digits of a base spell; at least one. -/
def ofDigits? (base : Nat) (digits : List Char) : Option Nat :=
  if digits = [] then none
  else digits.foldl (fun n c => do return base * (← n) + (← digit? base c)) (some 0)

/-- The character with a code point; a surrogate is no character. -/
def charOf? (n : Nat) : Option Char := if n.isValidChar then some (.ofNat n) else none

/-- The character whose code point so many hexadecimal digits spell. -/
def charOfDigits (size : Nat) : Reader Char := fun text =>
  if text.length < size then none
  else do return (← charOf? (← ofDigits? 16 (text.take size)), text.drop size)

end Radix

end GridFilter
