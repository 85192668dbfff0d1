import GridFilter.Number.Binary64

/-! TOML values. -/

namespace GridFilter

/-- A TOML value. Of a moment, which is a date, a time or both, only the form counts; a number with a fraction or an
    exponent that is above every finite number is too large. -/
inductive Toml where
  | boolean (b : Bool)
  | integer (n : Int)
  | float (x : Binary64)
  | tooLarge
  | string (s : String)
  | moment
  | array (items : List Toml)
  | table (entries : List (String × Toml))
deriving Repr, Inhabited

namespace Toml

/-- A whole number that fits 128 bits, with a sign or without one. -/
def isWide (n : Int) : Bool := -(Nat.pow 2 127 : Int) ≤ n && n < (Nat.pow 2 128 : Int)

mutual

/-- No number in a value is too large. -/
def isBounded : Toml → Bool
  | .integer n => isWide n
  | .tooLarge => false
  | .array items => areBounded items
  | .table entries => areEntriesBounded entries
  | _ => true

/-- No number in some values is too large. -/
def areBounded : List Toml → Bool
  | [] => true
  | item :: rest => isBounded item && areBounded rest

/-- No number in the values of some entries is too large. -/
def areEntriesBounded : List (String × Toml) → Bool
  | [] => true
  | (_, value) :: rest => isBounded value && areEntriesBounded rest

end

end Toml

end GridFilter
