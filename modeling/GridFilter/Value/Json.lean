import GridFilter.Json.Printer
import GridFilter.Value.Basic

/-! Values as JSON. Every finite number has a JSON form of its own kind; where a number without digits has to be
    shown, null stands for it. -/

namespace GridFilter.Value

/-! ### From JSON -/

/-- A whole number of JSON: of 64 bits where it fits, double precision where it does not. -/
def ofInteger (n : Int) : Value :=
  if Int64.minValue.toInt ≤ n ∧ n ≤ Int64.maxValue.toInt then .int (Int64.ofInt n) else .float (.ofInt n)

mutual

/-- The value that a JSON value stands for. -/
def ofJson : Json → Value
  | .null => .null
  | .bool b => .bool b
  | .integer n => ofInteger n
  | .double x => .float x
  | .string s => .string s
  | .array items => .array (ofJsonItems items)
  | .object entries => .object (ofJsonEntries entries)

/-- The values of a list. -/
def ofJsonItems : List Json → List Value
  | [] => []
  | item :: rest => ofJson item :: ofJsonItems rest

/-- The values of an object. -/
def ofJsonEntries : List (String × Json) → List (String × Value)
  | [] => []
  | (name, json) :: rest => (name, ofJson json) :: ofJsonEntries rest

end

/-! ### To JSON -/

mutual

/-- The JSON form of a value, or the first number in it that has none. -/
def toJson? : Value → Except Binary64 Json
  | .null => .ok .null
  | .bool b => .ok (.bool b)
  | .int n => .ok (.integer n.toInt)
  | .float x => if x.isFinite then .ok (.double x) else .error x
  | .string s => .ok (.string s)
  | .array items => (toJsonItems? items).map .array
  | .object entries => (toJsonEntries? entries).map .object

/-- The JSON forms of the values of a list. -/
def toJsonItems? : List Value → Except Binary64 (List Json)
  | [] => .ok []
  | item :: rest => do
    let json ← toJson? item
    let others ← toJsonItems? rest
    return json :: others

/-- The JSON forms of the values of an object. -/
def toJsonEntries? : List (String × Value) → Except Binary64 (List (String × Json))
  | [] => .ok []
  | (name, value) :: rest => do
    let json ← toJson? value
    let others ← toJsonEntries? rest
    return (name, json) :: others

end

mutual

/-- The JSON form of a value, with null for a number that has none. -/
def shown : Value → Json
  | .null => .null
  | .bool b => .bool b
  | .int n => .integer n.toInt
  | .float x => .ofDouble x
  | .string s => .string s
  | .array items => .array (shownItems items)
  | .object entries => .object (shownEntries entries)

/-- The JSON forms of the values of a list, with null where there is none. -/
def shownItems : List Value → List Json
  | [] => []
  | item :: rest => shown item :: shownItems rest

/-- The JSON forms of the values of an object, with null where there is none. -/
def shownEntries : List (String × Value) → List (String × Json)
  | [] => []
  | (name, value) :: rest => (name, shown value) :: shownEntries rest

end

/-- The message about a number without a JSON form. -/
def noJsonForm (x : Binary64) : String := "Value error: " ++ x.toText ++ " has no JSON form"

end GridFilter.Value
