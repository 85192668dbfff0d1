import GridFilter.Operator
import GridFilter.Value.Json

/-! Grid filters, the nested lists that a data grid takes. A condition is a list of left side, operator and right
    side; a group is a list of operands with one connective between every two of them. -/

namespace GridFilter

/-! ### Operators -/

/-- The operators of a grid condition. -/
inductive GridOperator where
  | eq
  | ne
  | gt
  | ge
  | lt
  | le
  | isIn
  | between
  | contains
  | notContains
deriving DecidableEq, Repr, Inhabited

namespace GridOperator

/-- The label of an operator. -/
def label : GridOperator → String
  | .eq => "="
  | .ne => "!="
  | .gt => ">"
  | .ge => ">="
  | .lt => "<"
  | .le => "<="
  | .isIn => "in"
  | .between => "between"
  | .contains => "contains"
  | .notContains => "notcontains"

/-- The grid operator for a comparison. The items of a `NOT IN` list are each compared by `!=`. -/
def ofComparison : Comparison → GridOperator
  | .eq => .eq
  | .ne | .notIn => .ne
  | .gt => .gt
  | .ge => .ge
  | .lt => .lt
  | .le => .le
  | .isIn => .isIn
  | .between => .between
  | .like => .contains
  | .notLike => .notContains

end GridOperator

/-! ### Filters -/

/-- A grid filter or a part of one. A truth value stands for a part that is decided. -/
inductive Grid where
  | bool (b : Bool)
  | value (v : Value)
  | field (name : String)
  | list (items : List Grid)
  | condition (left : Grid) (operator : GridOperator) (right : Grid)
  | group (connective : Connective) (operands : List Grid)
deriving Repr, Inhabited

namespace Grid

/-- The truth value of a decided part. -/
def bool? : Grid → Option Bool
  | .bool b => some b
  | _ => none

/-- The value of a part that is one. -/
def value? : Grid → Option Value
  | .value v => some v
  | _ => none

/-- The filter that a result stands for; a truth value and null stand for none. -/
def root? : Grid → Option Grid
  | .bool _ | .value .null => none
  | other => some other

mutual

/-- The count of conditions, those inside the sides of a condition left out. -/
def conditionCount : Grid → Nat
  | .condition .. => 1
  | .group _ operands => conditionCounts operands
  | .bool _ | .value _ | .field _ | .list _ => 0

/-- The count of conditions in a list of parts. -/
def conditionCounts : List Grid → Nat
  | [] => 0
  | operand :: rest => operand.conditionCount + conditionCounts rest

end

/-! ### JSON -/

/-- Items with a separator between every two of them. -/
def separated (separator : Json) : List Json → List Json
  | [] => []
  | [item] => [item]
  | item :: rest => item :: separator :: separated separator rest

mutual

/-- A grid filter as JSON. -/
def toJson : Grid → Json
  | .bool b => .bool b
  | .value v => v.shown
  | .field name => .string name
  | .list items => .array (listToJson items)
  | .condition left operator right => .array [left.toJson, .string operator.label, right.toJson]
  | .group connective operands => .array (separated (.string connective.label) (listToJson operands))

/-- The parts of a list as JSON. -/
def listToJson : List Grid → List Json
  | [] => []
  | item :: rest => item.toJson :: listToJson rest

end

/-- The JSON of a converted filter: null where there is no filter. -/
def rootToJson (root : Option Grid) : Json := (root.map toJson).getD .null

end Grid

end GridFilter
