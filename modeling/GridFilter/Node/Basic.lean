import GridFilter.Operator
import GridFilter.Value.Basic

/-! The tree of a filter: comparisons joined by connectives, over fields, values, placeholders and calls of the
    function `ISNULL`, which gives its second argument where its first one is null. -/

namespace GridFilter

mutual

/-- A part of a filter. -/
inductive Node where
  | logical (connective : Connective) (left right : Node)
  | comparison (subject : Node) (operator : Comparison) (operand : Operand)
  | isNull (arguments : List Node)
  | field (name : String)
  | literal (value : Value)
  | placeholder (name : String)

/-- What a field is compared with. -/
inductive Operand where
  | single (node : Node)
  | list (items : List Node)
  | range (low high : Node)

end

instance : Inhabited Node := ⟨.literal .null⟩

namespace Node

/-- The name of the function. -/
def functionName : String := "ISNULL"

/-- How many arguments the function needs. -/
def leastArguments : Nat := 2

/-- A comparison with one value. -/
def compare (subject : Node) (operator : Comparison) (value : Node) : Node :=
  .comparison subject operator (.single value)

/-- A comparison or a connective: a node that has a truth value rather than a value. -/
def isCondition : Node → Bool
  | .comparison .. | .logical .. => true
  | _ => false

/-! ### Depth -/

mutual

/-- The count of nodes on the longest path down the tree. -/
def depth : Node → Nat
  | .logical _ left right => 1 + max left.depth right.depth
  | .comparison subject _ operand => 1 + max subject.depth (operandDepth operand)
  | .isNull arguments => 1 + listDepth arguments
  | .field _ | .literal _ | .placeholder _ => 1

/-- The depth of the deepest node of an operand. -/
def operandDepth : Operand → Nat
  | .single node => node.depth
  | .list items => listDepth items
  | .range low high => max low.depth high.depth

/-- The depth of the deepest node of a list; zero for the empty list. -/
def listDepth : List Node → Nat
  | [] => 0
  | node :: rest => max node.depth (listDepth rest)

end

/-! ### Placeholders -/

mutual

/-- The names of the placeholders of a tree, from left to right. -/
def placeholders : Node → List String
  | .logical _ left right => left.placeholders ++ right.placeholders
  | .comparison subject _ operand => subject.placeholders ++ operandPlaceholders operand
  | .isNull arguments => listPlaceholders arguments
  | .field _ | .literal _ => []
  | .placeholder name => [name]

/-- The names of the placeholders of an operand. -/
def operandPlaceholders : Operand → List String
  | .single node => node.placeholders
  | .list items => listPlaceholders items
  | .range low high => low.placeholders ++ high.placeholders

/-- The names of the placeholders of a list of nodes. -/
def listPlaceholders : List Node → List String
  | [] => []
  | node :: rest => node.placeholders ++ listPlaceholders rest

end

/-! ### Equality -/

mutual

/-- Two trees agree in shape and names, and their literals are equal values. -/
def same : Node → Node → Bool
  | .logical k a b, .logical k' a' b' => k == k' && same a a' && same b b'
  | .comparison f o v, .comparison f' o' v' => same f f' && o == o' && sameOperand v v'
  | .isNull as, .isNull bs => sameList as bs
  | .field a, .field b => a == b
  | .literal a, .literal b => a.same b
  | .placeholder a, .placeholder b => a == b
  | _, _ => false

/-- Two operands agree. -/
def sameOperand : Operand → Operand → Bool
  | .single a, .single b => same a b
  | .list as, .list bs => sameList as bs
  | .range a b, .range a' b' => same a a' && same b b'
  | _, _ => false

/-- Two lists of nodes agree item by item. -/
def sameList : List Node → List Node → Bool
  | [], [] => true
  | a :: as, b :: bs => same a b && sameList as bs
  | _, _ => false

end

end Node

end GridFilter
