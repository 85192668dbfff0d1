import GridFilter.Node.Basic
import GridFilter.Value.Spelling

/-! The tree of a filter as text and as JSON. The text reads back to the tree: two joined conditions stand in
    parentheses, and placeholders in braces. -/

namespace GridFilter.Node

/-! ### Text -/

mutual

/-- A tree as a filter text. -/
def spelling : Node → String
  | .logical connective left right => "(" ++ left.spelling ++ " " ++ connective.symbol ++ " " ++ right.spelling ++ ")"
  | .comparison subject operator operand => subject.spelling ++ " " ++ operator.symbol ++ " " ++ operandSpelling operand
  | .isNull arguments => functionName ++ "(" ++ ", ".intercalate (spellings arguments) ++ ")"
  | .field name => name
  | .literal value => value.spelling
  | .placeholder name => "\x7b" ++ name ++ "\x7d"

/-- An operand as it stands behind its operator. -/
def operandSpelling : Operand → String
  | .single node => node.spelling
  | .list items => "(" ++ ", ".intercalate (spellings items) ++ ")"
  | .range low high => low.spelling ++ " AND " ++ high.spelling

/-- Each node of a list as text. -/
def spellings : List Node → List String
  | [] => []
  | node :: rest => node.spelling :: spellings rest

end

/-! ### JSON -/

mutual

/-- A tree as JSON: each node is an object that says its type. -/
def toJson : Node → Json
  | .logical connective left right => .object
    [("type", .string "logical"), ("operator", .string connective.label), ("left", left.toJson),
      ("right", right.toJson)]
  | .comparison subject operator operand => .object
    [("type", .string "comparison"), ("field", subject.toJson), ("operator", .string operator.label),
      ("value", operandToJson operand)]
  | .isNull arguments => .object
    [("type", .string "functionCall"), ("function", .string functionName), ("args", .array (listToJson arguments))]
  | .field name => .object [("type", .string "fieldRef"), ("name", .string name)]
  | .literal value => .object [("type", .string "literal"), ("value", value.shown)]
  | .placeholder name => .object [("type", .string "placeholder"), ("name", .string name)]

/-- An operand as JSON: a node, a list of nodes, or an object with both ends of a range. -/
def operandToJson : Operand → Json
  | .single node => node.toJson
  | .list items => .array (listToJson items)
  | .range low high => .object [("low", low.toJson), ("high", high.toJson)]

/-- The nodes of a list as JSON. -/
def listToJson : List Node → List Json
  | [] => []
  | node :: rest => node.toJson :: listToJson rest

end

end GridFilter.Node
