import GridFilter.Node.Parser

/-! The parser without its cursor. It takes the tokens that are left, and the levels that are left are what it recurses
    on. -/

namespace GridFilter.Parser

/-! ### Parts of an expression -/

/-- One or more items with commas between them; `bound` is the count of items that may still follow. -/
def moreItems {α : Type} (item : Parser α) : (bound : Nat) → Parser (List α)
  | bound + 1, token :: rest =>
    if token.kind = .comma then do
      let (first, rest) ← item rest
      let (others, rest) ← moreItems item bound rest
      return (first :: others, rest)
    else .ok ([], token :: rest)
  | _, tokens => .ok ([], tokens)

/-- One or more items with commas between them. -/
def commaList {α : Type} (item : Parser α) : Parser (List α) := fun tokens => do
  let (first, rest) ← item tokens
  let (others, rest) ← moreItems item rest.length rest
  return (first :: others, rest)

/-- A call of the function that a token names, with `arguments` between parentheses. -/
def call (extent : Extent) (arguments : Parser (List Node)) (token : Token) : Parser Node := fun tokens =>
  if Text.sameLetters token.text Node.functionName then do
    let (opened, rest) ← opening extent Node.functionName tokens
    let (nodes, rest) ← arguments rest
    let ((), rest) ← closing opened rest
    if nodes.length < Node.leastArguments then
      .error (.tooFewArguments Node.functionName Node.leastArguments nodes.length)
    else return (.isNull nodes, rest)
  else .error (.unsupportedFunction token.text token.position)

/-- A value, a call, or a `group` in parentheses. -/
def primary (extent : Extent) (group : Parser Node) (arguments : Parser (List Node)) : Parser Node
  | [] => .error .unexpectedEnd
  | token :: rest =>
    match token.kind with
    | .paren =>
      if token.isParen '(' then do
        let (node, rest) ← group rest
        let ((), rest) ← closing token.position rest
        return (node, rest)
      else .error (unexpected token)
    | .function => call extent arguments token rest
    | .identifier =>
      if startsWithParen '(' rest then .error (.unsupportedFunction token.text token.position)
      else .ok (.field token.text, rest)
    | _ => do
      let node ← leaf token
      return (node, rest)

/-- What follows a comparison operator. The left side has to be a value, so that comparisons do not chain. -/
def comparison (extent : Extent) (operand : Parser Node) (items : Parser (List Node)) (left : Node)
    (operator : Comparison) (token : Token) : Parser Node := fun tokens =>
  if left.isCondition then .error (unexpected token)
  else match operator with
    | .isIn | .notIn => do
      let (opened, rest) ← opening extent operator.symbol tokens
      let (nodes, rest) ← items rest
      let ((), rest) ← closing opened rest
      return (.comparison left operator (.list nodes), rest)
    | .between => do
      let (low, rest) ← operand tokens
      let ((), rest) ← betweenAnd extent rest
      let (high, rest) ← operand rest
      return (.comparison left operator (.range low high), rest)
    | _ => do
      let (right, rest) ← operand tokens
      let node ← ordered left operator right
      return (node, rest)

/-- The operators behind `left` that bind at least as tightly as `least`, with their right sides; `bound` is the
    count of operators that may still follow. -/
def climb (right : (least : Nat) → Parser Node) (compared : Node → Comparison → Token → Parser Node)
    (least : Nat) : (bound : Nat) → Node → Parser Node
  | bound + 1, left, token :: rest =>
    match BinaryOperator.ofToken? token with
    | none => .ok (left, token :: rest)
    | some found =>
      if found.precedence < least then .ok (left, token :: rest)
      else match found with
        | .connective operator => do
          let (node, rest) ← right (operator.precedence + 1) rest
          climb right compared least bound (.logical operator left node) rest
        | .comparison operator => do
          let (node, rest) ← compared left operator token rest
          climb right compared least bound node rest
  | _, left, tokens => .ok (left, tokens)

/-! ### Expressions -/

mutual

/-- An expression whose operators bind at least as tightly as `least`, with so many levels left. -/
def expression (extent : Extent) : (levels : Nat) → (least : Nat) → Parser Node
  | 0, _, _ => .error (.tooDeep extent.maxDepth)
  | levels + 1, least, tokens => do
    let (left, rest) ← primary extent (expression extent levels 0) (arguments extent levels) tokens
    climb (expression extent levels)
      (comparison extent (primary extent (nested extent levels) (arguments extent levels)) (items extent levels))
      least rest.length left rest

/-- An operand inside parentheses, with so many levels left. -/
def nested (extent : Extent) : (levels : Nat) → Parser Node
  | 0, _ => .error (.tooDeep extent.maxDepth)
  | levels + 1, tokens => primary extent (nested extent levels) (arguments extent levels) tokens

/-- The arguments of a call, with so many levels left. -/
def arguments (extent : Extent) : (levels : Nat) → Parser (List Node)
  | 0, _ => .error (.tooDeep extent.maxDepth)
  | levels + 1, tokens => commaList (expression extent levels 0) tokens

/-- The values of a list, with so many levels left. -/
def items (extent : Extent) : (levels : Nat) → Parser (List Node)
  | 0, _ => .error (.tooDeep extent.maxDepth)
  | levels + 1, tokens => commaList (primary extent (nested extent levels) (arguments extent levels)) tokens

end

/-- An operand of a comparison, with so many levels left. -/
def operand (extent : Extent) (levels : Nat) : Parser Node :=
  primary extent (nested extent levels) (arguments extent levels)

end GridFilter.Parser
