import GridFilter.Number.Decimal

/-! The values a filter text can spell and a record can hold, their numeric reading, and when two are equal. -/

namespace GridFilter

/-- A value. The names of an object keep their order. -/
inductive Value where
  | null
  | bool (b : Bool)
  | int (n : Int64)
  | float (x : Binary64)
  | string (s : String)
  | array (items : List Value)
  | object (entries : List (String × Value))
deriving Repr, Inhabited

namespace Value

/-- The kind of a value. -/
def kindName : Value → String
  | .null => "null"
  | .bool _ => "boolean"
  | .int _ => "integer"
  | .float _ => "float"
  | .string _ => "string"
  | .array _ => "array"
  | .object _ => "object"

/-- The value is null. -/
def isNull : Value → Bool
  | .null => true
  | _ => false

/-- The text of a string value. -/
def string? : Value → Option String
  | .string s => some s
  | _ => none

/-- The double precision number nearest to a whole one. -/
def ofWhole (n : Int64) : Binary64 := .ofInt n.toInt

/-- The finite number that a text spells, blanks on either side left out. -/
def spelledNumber? (text : String) : Option Binary64 :=
  (Decimal.double? (Text.trim text.toList)).filter Binary64.isFinite

/-- The numeric reading of a value: a number that is finite, one and zero for the truth values, and the number that
    a text spells. Nothing else has one. -/
def number? : Value → Option Binary64
  | .int n => some (ofWhole n)
  | .float x => if x.isFinite then some x else none
  | .bool b => some (.ofBool b)
  | .string s => spelledNumber? s
  | .null | .array _ | .object _ => none

/-! ### Equality -/

mutual

/-- Two values are equal: whole numbers exactly, other numbers in double precision, lists item by item, objects by
    name in whatever order, and all else only within its kind. Of the entries under one name the first one counts. -/
def same : Value → Value → Bool
  | .null, .null => true
  | .bool a, .bool b => a == b
  | .int a, .int b => a == b
  | .int a, .float b => (ofWhole a).same b
  | .float a, .int b => a.same (ofWhole b)
  | .float a, .float b => a.same b
  | .string a, .string b => a == b
  | .array a, .array b => sameItems a b
  | .object a, .object b => sameEntries [] a b && b.all fun (name, _) => (a.lookup name).isSome
  | _, _ => false

/-- Two lists have equal items in the same order. -/
def sameItems : List Value → List Value → Bool
  | [], [] => true
  | a :: as, b :: bs => same a b && sameItems as bs
  | _, _ => false

/-- Each entry of the first list that counts has an equal one under its name in the second; the names in `known` have
    been mentioned before. -/
def sameEntries (known : List String) : List (String × Value) → List (String × Value) → Bool
  | [], _ => true
  | (name, a) :: rest, entries =>
    (name ∈ known || match entries.lookup name with
      | some b => same a b
      | none => false) && sameEntries (name :: known) rest entries

end

end Value

end GridFilter
