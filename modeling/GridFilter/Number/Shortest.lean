import GridFilter.Number.Binary64

/-! The shortest decimal spelling of a double precision number: the fewest significant digits that read back to it,
    and among those the nearest to it. Both neighbours of the number are tried on ever finer decimal grids, each by
    reading it back. -/

namespace GridFilter.Binary64

/-! ### Decimal grids -/

/-- Which of two equally near spellings is taken: the even one or the upper one. -/
inductive Tie where
  | toEven
  | up
deriving DecidableEq, Repr

/-- The magnitude at a place as a count of steps of `10 ^ exponent`, a fraction. -/
def inSteps (place : Nat) (exponent : Int) : Nat × Nat :=
  (units place * Nat.pow 10 (-exponent).toNat, Nat.pow 2 1074 * Nat.pow 10 exponent.toNat)

/-- `digits * 10 ^ exponent` reads back as the magnitude at `place`. -/
def readsBack (place : Nat) (digits : Nat) (exponent : Int) : Bool :=
  ofDecimal false digits exponent == ofPlace false place

/-- The spelling with steps of `10 ^ exponent` that reads back, if a neighbour of the magnitude does. -/
def spelling? (tie : Tie) (place : Nat) (exponent : Int) : Option Nat :=
  let (num, den) := inSteps place exponent
  let below := num / den
  let twice := 2 * (num % den)
  let upper := den < twice || (twice == den && (tie == .up || below % 2 == 1))
  match readsBack place below exponent, readsBack place (below + 1) exponent with
  | true, true => some (if upper then below + 1 else below)
  | true, false => some below
  | false, true => some (below + 1)
  | false, false => none

/-- The exponent of the first digit: the magnitude lies from ten to this power up to the next power of ten. -/
def firstExponent (place : Nat) : Int :=
  (decimalLength (units place * Nat.pow 10 340 / Nat.pow 2 1074) : Int) - 341

/-- The first grid that has a spelling, from one significant digit to seventeen, as digits and exponent. Failing all
    of them the magnitude is written out in full. -/
def firstSpelling (tie : Tie) (place : Nat) : Nat × Int :=
  let first := firstExponent place
  let found := (List.range 17).findSome? fun (n : Nat) => (spelling? tie place (first - n)).map (·, first - n)
  found.getD (units place * Nat.pow 5 1074, -1074)

/-- Digits without the zeros behind them, and the exponent that makes up for those. -/
def dropZeros (digits : List Char) (exponent : Int) : List Char × Int :=
  let zeros := (digits.reverse.takeWhile (· == '0')).length
  (digits.take (digits.length - zeros), exponent + zeros)

/-- The shortest digits of the magnitude at a place, and the exponent of the last one. Zero is the digit 0. -/
def shortest (tie : Tie) (place : Nat) : List Char × Int :=
  if place = 0 then (['0'], 0)
  else
    let (digits, exponent) := firstSpelling tie place
    dropZeros (Nat.toDigits 10 digits) exponent

end GridFilter.Binary64
