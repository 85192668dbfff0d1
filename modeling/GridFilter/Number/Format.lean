import GridFilter.Number.Shortest

/-! Writing double precision numbers. A format says which exponents are written out, whether a whole number keeps a
    fraction, and what stands for the values that have no digits; all take the shortest digits. -/

namespace GridFilter.Binary64

/-- The decisions of a number format. -/
structure Format where
  /-- The exponents of the first digit that are written out; others take a power of ten. -/
  writtenOut : Int → Bool
  /-- A number without a fraction is written with the fraction 0. -/
  keepsFraction : Bool
  /-- The choice between two equally near spellings. -/
  tie : Tie
  /-- The text for a value that is not a number. -/
  nan : String
  /-- The text for an infinity. -/
  infinity : Bool → String

/-! ### Layouts -/

/-- Digits written out around a point, the last one standing for `10 ^ exponent`. -/
def writeOut (keepsFraction : Bool) (digits : List Char) (exponent : Int) : List Char :=
  if 0 ≤ exponent then
    digits ++ List.replicate exponent.toNat '0' ++ (if keepsFraction then ['.', '0'] else [])
  else
    let places := (-exponent).toNat
    if places < digits.length then
      digits.take (digits.length - places) ++ '.' :: digits.drop (digits.length - places)
    else '0' :: '.' :: (List.replicate (places - digits.length) '0' ++ digits)

/-- Digits with a point behind the first one, and the power of ten of that first digit. -/
def writePower (digits : List Char) (first : Int) : List Char :=
  let significand := match digits with
    | [] => []
    | [d] => [d]
    | d :: others => d :: '.' :: others
  let sign := if first < 0 then '-' else '+'
  significand ++ 'e' :: sign :: Nat.toDigits 10 first.natAbs

/-- A finite magnitude in a format. -/
def Format.magnitude (format : Format) (place : Nat) : List Char :=
  let (digits, exponent) := shortest format.tie place
  let first := exponent + digits.length - 1
  if format.writtenOut first then writeOut format.keepsFraction digits exponent else writePower digits first

/-- A number in a format. -/
def Format.write (format : Format) : Binary64 → List Char
  | .nan => format.nan.toList
  | .infinity negative => (format.infinity negative).toList
  | .finite negative place => (if negative then ['-'] else []) ++ format.magnitude place

/-! ### The two formats -/

/-- Numbers of a JSON text: written out while the first digit is worth from 10^-5 to 10^15, always with a fraction
    or an exponent; a value without digits is null. -/
def jsonFormat : Format where
  writtenOut e := -5 ≤ e && e ≤ 15
  keepsFraction := true
  tie := .toEven
  nan := "null"
  infinity _ := "null"

/-- Numbers of a filter text: always written out, and a whole number without a fraction. -/
def plainFormat : Format where
  writtenOut _ := true
  keepsFraction := false
  tie := .up
  nan := "NaN"
  infinity negative := if negative then "-inf" else "inf"

/-- The spelling of a number in JSON. -/
def toJsonText (x : Binary64) : String := .ofList (jsonFormat.write x)

/-- The spelling of a number in a filter text. -/
def toText (x : Binary64) : String := .ofList (plainFormat.write x)

end GridFilter.Binary64
