import GridFilter.Number.Binary64

/-! JSON values. A number is whole or double precision, as its spelling says, and the entries of an object keep their
    order. -/

namespace GridFilter

/-- A JSON value. -/
inductive Json where
  | null
  | bool (b : Bool)
  | integer (n : Int)
  | double (x : Binary64)
  | string (s : String)
  | array (items : List Json)
  | object (entries : List (String × Json))
deriving Repr, Inhabited

namespace Json

/-- The number `x` as JSON; null stands for a value that has no digits. -/
def ofDouble (x : Binary64) : Json := if x.isFinite then .double x else .null

/-- A list of texts as JSON. -/
def ofStrings (texts : List String) : Json := .array (texts.map .string)

/-- The kind of a value, as error messages name it. -/
def kindName : Json → String
  | .null => "null"
  | .bool _ => "boolean"
  | .integer _ | .double _ => "number"
  | .string _ => "string"
  | .array _ => "array"
  | .object _ => "object"

/-- The value under a key of an object. -/
def get? : Json → String → Option Json
  | .object entries, key => entries.lookup key
  | _, _ => none

end Json

end GridFilter
