import GridFilter.Yaml.Token

/-! The contents of a YAML document. A node may have a number by which aliases refer to it; a number that nodes share
    stands for the last of them. -/

namespace GridFilter.Yaml

/-- What stands in front of a node: the number by which aliases refer to it, and the name of its tag. -/
structure Properties where
  anchor : Option Nat := none
  tag : Option String := none
deriving DecidableEq, Repr, Inhabited

/-- A node: an alias of another one, a scalar, a list, or a map. -/
inductive Node where
  | alias (anchor : Nat)
  | scalar (properties : Properties) (style : Style) (text : String)
  | list (properties : Properties) (items : List Node)
  | map (properties : Properties) (entries : List (Node × Node))
deriving Repr, Inhabited

namespace Node

/-- A scalar of which nothing is written. -/
def missing : Node := .scalar {} .plain ""

/-- The node by itself where its properties have a number. -/
def numbered (properties : Properties) (node : Node) : List (Nat × Node) :=
  properties.anchor.toList.map (·, node)

mutual

/-- The nodes with numbers, each in front of those below it. -/
def anchored : Node → List (Nat × Node)
  | .alias _ => []
  | .scalar properties style text => numbered properties (.scalar properties style text)
  | .list properties items => numbered properties (.list properties items) ++ anchoredItems items
  | .map properties entries => numbered properties (.map properties entries) ++ anchoredEntries entries

/-- The nodes with numbers in a list. -/
def anchoredItems : List Node → List (Nat × Node)
  | [] => []
  | node :: rest => anchored node ++ anchoredItems rest

/-- The nodes with numbers in the entries of a map. -/
def anchoredEntries : List (Node × Node) → List (Nat × Node)
  | [] => []
  | (key, value) :: rest => anchored key ++ anchored value ++ anchoredEntries rest

end

/-- The node that a node of a document stands for: an alias for the last node with its number. -/
def resolve (root : Node) : Node → Node
  | .alias anchor => (root.anchored.reverse.lookup anchor).getD missing
  | node => node

end Node

end GridFilter.Yaml
