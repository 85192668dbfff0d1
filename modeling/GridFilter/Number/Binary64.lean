/-! Double precision numbers. The finite magnitudes are `0 < u < 2u < …`, whole multiples of the smallest one
    (the unit, 2^-1074), and a magnitude is held as its place in that ascending row. Rounding gives a place, the
    place after the last one is infinity, and comparing two numbers compares two places. -/

namespace GridFilter

/-- How many magnitudes a run has: 2^52. -/
def Binary64.run : Nat := Nat.pow 2 52

/-- How many finite magnitudes there are: 2047 runs, of which the first holds zero and the subnormals. -/
def Binary64.count : Nat := 2047 * run

/-- A double precision number. A finite one is its sign and the place of its magnitude; zero has both signs. -/
inductive Binary64 where
  | nan
  | infinity (negative : Bool)
  | finite (negative : Bool) (place : Fin Binary64.count)
deriving DecidableEq, Repr

namespace Binary64

/-! ### Places and units -/

/-- The magnitude at a place, in units of 2^-1074: consecutive places are one unit apart in the first two runs, and
    in each later run twice as far apart as in the one before. -/
def units (place : Nat) : Nat :=
  if place < run then place else (run + place % run) * Nat.pow 2 (place / run - 1)

/-- The place of the magnitude nearest to `num / den` units, a half going to the even neighbour. -/
def nearest (num den : Nat) : Nat :=
  let shift := Nat.log2 (num / den) - 52
  let step := den * Nat.pow 2 shift
  let below := num / step
  let twice := 2 * (num % step)
  let significand := if step < twice || (twice == step && below % 2 == 1) then below + 1 else below
  shift * run + significand

/-- The number at a place; every place past the last finite one is infinity. -/
def ofPlace (negative : Bool) (place : Nat) : Binary64 :=
  if h : place < count then .finite negative ⟨place, h⟩ else .infinity negative

/-- Zero, with a sign. -/
def zero (negative : Bool) : Binary64 := ofPlace negative 0

/-- The number nearest to the fraction `num / den`. -/
def ofRatio (negative : Bool) (num den : Nat) : Binary64 :=
  ofPlace negative (nearest (num * Nat.pow 2 1074) den)

/-- The number nearest to a whole number. -/
def ofInt (n : Int) : Binary64 := ofRatio (n < 0) n.natAbs 1

/-- The count of decimal digits of a whole number; one for zero. -/
def decimalLength (n : Nat) : Nat := (Nat.toDigits 10 n).length

/-- The number nearest to `digits * 10 ^ exponent`. A value of more than 310 digits before the point is above every
    finite number, and one below 10^-330 is nearest to zero, so that no larger power is ever computed. -/
def ofDecimal (negative : Bool) (digits : Nat) (exponent : Int) : Binary64 :=
  if digits = 0 then zero negative
  else
    let size := exponent + decimalLength digits
    if 310 < size then .infinity negative
    else if size < -330 then zero negative
    else if 0 ≤ exponent then ofRatio negative (digits * Nat.pow 10 exponent.toNat) 1
    else ofRatio negative digits (Nat.pow 10 (-exponent).toNat)

/-! ### Order -/

/-- The place of a number on the whole line, the infinities at the ends; both zeros have the place 0. -/
def line : Binary64 → Option Int
  | .nan => none
  | .infinity negative => some (if negative then -count else count)
  | .finite negative place => some (if negative then -(place.val : Int) else place.val)

/-- A relation between the places of two numbers; it fails when one of them is not a number. -/
def related (relation : Int → Int → Bool) (a b : Binary64) : Bool :=
  match a.line, b.line with
  | some x, some y => relation x y
  | _, _ => false

/-- The same number: zeros agree whatever their sign, and nothing equals what is not a number. -/
def same : Binary64 → Binary64 → Bool := related (· == ·)

/-- Strictly below. -/
def less : Binary64 → Binary64 → Bool := related (· < ·)

/-- Below or the same. -/
def atMost : Binary64 → Binary64 → Bool := related (· ≤ ·)

/-- Neither infinite nor undefined. -/
def isFinite : Binary64 → Bool
  | .finite _ _ => true
  | _ => false

/-- One for true and zero for false. -/
def ofBool (b : Bool) : Binary64 := ofInt (if b then 1 else 0)

end Binary64

end GridFilter
