import GridFilter.Decision
import GridFilter.Grid.Basic
import GridFilter.Node.Basic
import GridFilter.Resolution
import GridFilter.Text.Blank

/-! Converting the tree of a filter into a grid filter. Placeholders are resolved; with short-circuiting, comparisons
    that the values settle become truth values, and the groups above them are folded. Conversion does not fail: a
    placeholder without a value stays as its name in braces. -/

namespace GridFilter

/-- How filters are converted. -/
structure ConvertOptions where
  /-- Comparisons between known values are decided, and the truth values folded away. -/
  shortCircuit : Bool := true
  /-- A list after `IN` becomes one condition for each item. -/
  expandIn : Bool := true
  /-- What a missing attribute stands for. -/
  missingAttribute : MissingAttribute := .firstProperty
deriving DecidableEq, Repr, Inhabited

namespace Conversion

/-! ### Groups -/

/-- The operands of a group with the same connective, and any other part by itself. -/
def spliced (connective : Connective) : Grid → List Grid
  | .group inner operands => if inner = connective then operands else [.group inner operands]
  | other => [other]

/-- What decided operands leave of a list: nothing but the rest when short-circuiting, else the whole list. -/
def undecided (shortCircuit : Bool) (operands : List Grid) : List Grid :=
  if shortCircuit then operands.filter (·.bool?.isNone) else operands

/-- Joins operands. Groups of the same connective are spliced in. With short-circuiting one absorbing truth value
    decides the whole, and the others are left out. -/
def combine (shortCircuit : Bool) (connective : Connective) (operands : List Grid) : Grid :=
  if shortCircuit && operands.any (·.bool? == some connective.absorbing) then .bool connective.absorbing
  else match (undecided shortCircuit operands).flatMap (spliced connective) with
    | [] => .bool connective.identity
    | [operand] => operand
    | kept => .group connective kept

/-! ### Parts of a tree -/

/-- A converted node, as far as the comparison or connective above it looks at it. -/
inductive Part where
  /-- Operands of one connective, not yet joined. -/
  | chain (connective : Connective) (operands : List Grid)
  | literal (value : Value)
  | field (name : String)
  | placeholder (name : String)
  /-- `ISNULL` over a field, with its default. -/
  | fieldOr (name : String) (default : Grid)
  /-- `ISNULL` over a placeholder, with its default if it has one. -/
  | placeholderOr (name : String) (default : Option Grid)
  /-- Any other node. -/
  | other (grid : Grid)

/-- What conversion depends on besides the tree. -/
structure Setting where
  shortCircuit : Bool
  expandIn : Bool
  resolve : Resolver

variable (setting : Setting)

/-- A part as a grid filter. The default of `ISNULL` matters only to the comparison above it. -/
def Part.grid : Part → Grid
  | .chain connective operands => combine setting.shortCircuit connective operands
  | .literal value => .value value
  | .field name | .fieldOr name _ => .field name
  | .placeholder name | .placeholderOr name _ => .value (setting.resolve.valueOf name)
  | .other grid => grid

/-- The operands that a part adds to a chain of a connective. -/
def Part.operands (connective : Connective) (part : Part) : List Grid :=
  match part with
  | .chain inner operands => if inner = connective then operands else [part.grid setting]
  | _ => [part.grid setting]

/-- Two parts joined by a connective: the chain on the left goes on. -/
def joined (connective : Connective) (left right : Part) : Part :=
  .chain connective (left.operands setting connective ++ [right.grid setting])

/-- A call of `ISNULL`. -/
def coalesced : List Part → Part
  | [] => .other (.value .null)
  | .field name :: default :: _ => .fieldOr name (default.grid setting)
  | .placeholder name :: others => .placeholderOr name (others.head?.map (·.grid setting))
  | first :: _ => .other (first.grid setting)

/-! ### Relational comparisons -/

/-- A condition, or the truth value that it has by the values of its sides alone. -/
def foldCondition (left : Grid) (operator : Comparison) (right : Grid) : Grid :=
  let decided := match left.value?, right.value? with
    | some l, some r => l.decide? operator r
    | _, _ => none
  match setting.shortCircuit, decided with
  | true, some b => .bool b
  | _, _ => .condition left (.ofComparison operator) right

/-- The value that `ISNULL` over a placeholder gives, where it is known. -/
def coalescedValue? (name : String) (default : Option Grid) : Option Value :=
  match setting.resolve name with
  | some .null => default.bind Grid.value?
  | found => found

/-- Decides the comparison of `ISNULL` over a placeholder that resolves with a literal. -/
def decideCoalesced? (call : Part) (operator : Comparison) (other : Part) : Option Bool :=
  match call, other with
  | .placeholderOr name default, .literal value =>
    (coalescedValue? setting name default).bind (·.decideStrictly? operator value)
  | _, _ => none

/-- The default of `ISNULL` satisfies the comparison. -/
def defaultMatches (default : Grid) (operator : Comparison) (right : Grid) : Bool :=
  match default.value?, right.value? with
  | some d, some v => d.decideStrictly? operator v == some true
  | _, _ => false

/-- The comparison of `ISNULL` over a field: the field is compared, and where the default satisfies the comparison a
    field that is null does too. -/
def coalescedCondition (name : String) (default : Grid) (operator : Comparison) (right : Grid) : Grid :=
  let condition := Grid.condition (.field name) (.ofComparison operator) right
  if defaultMatches default operator right then
    combine setting.shortCircuit .or [condition, .condition (.field name) .eq (.value .null)]
  else condition

/-- A comparison that no value decides beforehand. A call of `ISNULL` over a field on the right side is brought to
    the left. -/
def undecidedRelational (left : Part) (operator : Comparison) (right : Part) : Grid :=
  match left, right with
  | .fieldOr name default, _ => coalescedCondition setting name default operator (right.grid setting)
  | _, .fieldOr name default => coalescedCondition setting name default operator.inverse (left.grid setting)
  | _, _ => foldCondition setting (left.grid setting) operator (right.grid setting)

/-- A relational comparison of two parts. -/
def relational (left : Part) (operator : Comparison) (right : Part) : Grid :=
  let decided := decideCoalesced? setting left operator right <|>
    decideCoalesced? setting right operator.inverse left
  match setting.shortCircuit, decided with
  | true, some b => .bool b
  | _, _ => undecidedRelational setting left operator right

/-! ### Lists -/

/-- A value list: its items if it is one, else the value by itself. -/
def flattened : Grid → List Grid
  | .value (.array values) => values.map .value
  | other => [other]

/-- The items of a list after `IN`: the pieces of a lone text with commas, and else every item, lists among them
    taken apart. -/
def expandedItems (items : List Grid) : List Grid :=
  match items with
  | [.value (.string text)] =>
    if ',' ∈ text.toList then (Text.commaItems text).map fun item => .value (.string item) else items
  | _ => items.flatMap flattened

/-- A comparison with each item of a list, joined by a connective; the empty list stays one condition. -/
def eachItem (left : Grid) (operator : Comparison) (connective : Connective) (items : List Grid) : Grid :=
  match items with
  | [] => .condition left (.ofComparison operator) (.list [])
  | _ => combine setting.shortCircuit connective (items.map (foldCondition setting left operator))

/-- A comparison by `IN`, or by `NOT IN` where `negated`. -/
def membership (left : Grid) (negated : Bool) (items : List Grid) : Grid :=
  let expanded := expandedItems items
  if negated then eachItem setting left .ne .and expanded
  else if setting.expandIn then eachItem setting left .eq .or expanded
  else .condition left .isIn (.list expanded)

/-! ### Comparisons and trees -/

/-- The converted right side of a comparison. -/
inductive Side where
  | single (part : Part)
  | list (parts : List Part)
  | range (low high : Part)

/-- The items of a right side. -/
def Side.items : Side → List Grid
  | .single part => [part.grid setting]
  | .list parts => parts.map (·.grid setting)
  | .range low high => [low.grid setting, high.grid setting]

/-- A right side as a grid filter. -/
def Side.grid : Side → Grid
  | .single part => part.grid setting
  | .list parts => .list (parts.map (·.grid setting))
  | .range low high => .list [low.grid setting, high.grid setting]

/-- A comparison as a condition of its own. -/
def plainCondition (left : Part) (operator : Comparison) (right : Side) : Grid :=
  .condition (left.grid setting) (.ofComparison operator) (right.grid setting)

/-- A comparison. -/
def comparison (left : Part) (operator : Comparison) (right : Side) : Grid :=
  match operator with
  | .isIn => membership setting (left.grid setting) false (right.items setting)
  | .notIn => membership setting (left.grid setting) true (right.items setting)
  | .between | .like | .notLike => plainCondition setting left operator right
  | .eq | .ne | .gt | .ge | .lt | .le =>
    match right with
    | .single part => relational setting left operator part
    | _ => plainCondition setting left operator right

mutual

/-- A node as the part above it sees it. -/
def part : Node → Part
  | .logical connective left right => joined setting connective (part left) (part right)
  | .comparison subject operator operand => .other (comparison setting (part subject) operator (side operand))
  | .isNull arguments => coalesced setting (parts arguments)
  | .field name => .field name
  | .literal value => .literal value
  | .placeholder name => .placeholder name

/-- The right side of a comparison. -/
def side : Operand → Side
  | .single node => .single (part node)
  | .list nodes => .list (parts nodes)
  | .range low high => .range (part low) (part high)

/-- Each node of a list. -/
def parts : List Node → List Part
  | [] => []
  | node :: rest => part node :: parts rest

end

/-- A tree as a grid filter. -/
def grid (node : Node) : Grid := (part setting node).grid setting

end Conversion

namespace Node

/-- Converts a tree against a source of values. -/
def convertWith (node : Node) (options : ConvertOptions) (resolve : Resolver) : Grid :=
  Conversion.grid ⟨options.shortCircuit, options.expandIn, resolve⟩ node

/-- Converts a tree against a data map. -/
def convert (node : Node) (options : ConvertOptions) (data : DataMap) : Grid :=
  node.convertWith options (data.resolve options.missingAttribute)

end Node

end GridFilter
