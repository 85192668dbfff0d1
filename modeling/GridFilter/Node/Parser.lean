import GridFilter.Node.Basic
import GridFilter.Node.ParseError
import GridFilter.Number.Decimal
import GridFilter.WholeQuery

/-! Reading the tree of a filter from its tokens. `OR` binds least, then `AND`, then the comparisons; connectives
    group to the left and comparisons do not chain. A cursor goes over the tokens. It counts how deep it stands, since
    expressions, nested operands, argument lists and value lists each go one level deeper, and it notes the names of the
    placeholders that it passes. -/

namespace GridFilter

/-- Takes tokens off the front of a list, or says why it cannot. -/
abbrev Parser (α : Type) := List Token → Except ParseError (α × List Token)

namespace Parser

/-- What the messages of a run refer to: the byte offset past the last token, and the greatest depth allowed. -/
structure Extent where
  stop : Nat
  maxDepth : Nat
deriving DecidableEq, Repr

/-! ### Single tokens -/

/-- A token that has no use where it stands. -/
def unexpected (token : Token) : ParseError := .unexpectedToken token.text token.position

/-- The position of the next token, or the end of the text. -/
def positionOf (extent : Extent) : List Token → Nat
  | [] => extent.stop
  | token :: _ => token.position

/-- The next token is the parenthesis `paren`. -/
def startsWithParen (paren : Char) : List Token → Bool
  | [] => false
  | token :: _ => token.isParen paren

/-- The parenthesis that closes the one at a position. -/
def closing (opened : Nat) : Parser Unit
  | [] => .error (.missingParen opened)
  | token :: rest => if token.isParen ')' then .ok ((), rest) else .error (.missingParen opened)

/-- An opening parenthesis, which `after` has to be followed by; gives its position. -/
def opening (extent : Extent) (after : String) : Parser Nat
  | [] => .error (.expectedOpenParen after (positionOf extent []))
  | token :: rest =>
    if token.isParen '(' then .ok (token.position, rest)
    else .error (.expectedOpenParen after (positionOf extent (token :: rest)))

/-- The `AND` between the ends of a range. -/
def betweenAnd (extent : Extent) : Parser Unit
  | [] => .error (.missingBetweenAnd (positionOf extent []))
  | token :: rest =>
    if token.isOperator "AND" then .ok ((), rest)
    else .error (.missingBetweenAnd (positionOf extent (token :: rest)))

/-- The value of a number token: whole if it has no point and fits 64 bits, else double precision. -/
def numberOf? (text : List Char) : Option Value :=
  match (if '.' ∈ text then none else Decimal.int? text) with
  | some n => some (.int n)
  | none => (Decimal.double? text).map .float

/-- The node of a token that is a value by itself. -/
def leaf (token : Token) : Except ParseError Node :=
  match token.kind with
  | .number =>
    match numberOf? token.text.toList with
    | some value => .ok (.literal value)
    | none => .error (unexpected token)
  | .string => .ok (.literal (.string token.text))
  | .null => .ok (.literal .null)
  | .placeholder => .ok (.placeholder token.text)
  | .identifier => .ok (.field token.text)
  | .operator | .paren | .comma | .function => .error (unexpected token)

/-- A comparison with one value, the field first: where only the right side is a field, the sides of a relational
    comparison change places. Two fields are not compared. -/
def ordered (left : Node) (operator : Comparison) (right : Node) : Except ParseError Node :=
  match left, right with
  | .field a, .field b => .error (.invalidComparison a operator b)
  | .placeholder _, .field _ | .literal _, .field _ =>
    if operator.isRelational then .ok (.compare right operator.inverse left) else .ok (.compare left operator right)
  | _, _ => .ok (.compare left operator right)

/-- An operator that joins two parts of an expression. -/
inductive BinaryOperator where
  | connective (operator : Connective)
  | comparison (operator : Comparison)
deriving DecidableEq, Repr

/-- The operator that a token spells. -/
def BinaryOperator.ofToken? (token : Token) : Option BinaryOperator :=
  if token.kind = .operator then
    match Connective.ofSymbol? token.text with
    | some operator => some (.connective operator)
    | none => (Comparison.ofSymbol? token.text).map .comparison
  else none

/-- How tightly an operator binds. -/
def BinaryOperator.precedence : BinaryOperator → Nat
  | .connective operator => operator.precedence
  | .comparison _ => Comparison.precedence

/-! ### The cursor -/

/-- The state of a run: the tokens that are left, how many levels have been entered and not left, and the names noted so
    far. -/
structure Cursor extends Extent where
  ahead : List Token
  depth : Nat
  names : List String

/-- A part of a run. -/
abbrev Reading := StateT Cursor (Except ParseError)

namespace Cursor

/-- The cursor in front of the tokens of a filter, with the names known before. -/
def start (extent : Extent) (known : List String) (tokens : List Token) : Cursor :=
  { extent with ahead := tokens, depth := 0, names := known.foldl Text.noted [] }

/-- The tokens that a parser takes are behind the cursor. -/
def take {α : Type} (parser : Parser α) : Reading α := fun cursor => do
  let (a, rest) ← parser cursor.ahead
  return (a, { cursor with ahead := rest })

/-- One level deeper, if the limit allows it. -/
def enter : Reading Unit := do
  modify fun cursor => { cursor with depth := cursor.depth + 1 }
  let cursor ← get
  if cursor.maxDepth < cursor.depth then throw (.tooDeep cursor.maxDepth)

/-- One level up again. -/
def leave : Reading Unit := modify fun cursor => { cursor with depth := cursor.depth - 1 }

/-- Notes a name, at its first place only. -/
def note (name : String) : Reading Unit := modify fun cursor => { cursor with names := Text.noted cursor.names name }

/-- The next token. -/
def next : Reading Token := take fun
  | [] => .error .unexpectedEnd
  | token :: rest => .ok (token, rest)

/-- The node of a token that is a value by itself. The name of a placeholder is noted. -/
def value (token : Token) : Reading Node := do
  if token.kind = .placeholder then note token.text
  leaf token

/-- An opening parenthesis, which `after` has to be followed by; gives its position. -/
def opening (after : String) : Reading Nat := do take (Parser.opening (← get).toExtent after)

/-- The `AND` between the ends of a range. -/
def betweenAnd : Reading Unit := do take (Parser.betweenAnd (← get).toExtent)

/-- A part of a run that is one level deeper. -/
def deeper {α : Type} (inside : Reading α) : Reading α := do
  enter
  let a ← inside
  leave
  return a

/-- What stands in parentheses, of which one was opened at a position. -/
def enclosed {α : Type} (inside : Reading α) (opened : Nat) : Reading α := do
  let a ← inside
  take (closing opened)
  return a

/-- What stands in parentheses one level deeper. -/
def nested {α : Type} (inside : Reading α) (opened : Nat) : Reading α := deeper (enclosed inside opened)

/-! ### Parts of an expression -/

/-- Items with commas in front of them; `bound` is the count of items that may still follow. -/
def moreItems {α : Type} (item : Reading α) : (bound : Nat) → Reading (List α)
  | 0 => return []
  | bound + 1 => do
    match (← get).ahead with
    | [] => return []
    | token :: _ =>
      if token.kind = .comma then
        let _ ← next
        let first ← item
        let others ← moreItems item bound
        return first :: others
      else return []

/-- One or more items with commas between them. -/
def commaList {α : Type} (item : Reading α) : Reading (List α) := do
  let first ← item
  let others ← moreItems item (← get).ahead.length
  return first :: others

/-- A call of the function that a token names. The arguments are told where their parenthesis was opened. -/
def call (arguments : (opened : Nat) → Reading (List Node)) (token : Token) : Reading Node := do
  if Text.sameLetters token.text Node.functionName then
    let opened ← opening Node.functionName
    let nodes ← arguments opened
    if nodes.length < Node.leastArguments then
      throw (.tooFewArguments Node.functionName Node.leastArguments nodes.length)
    else return .isNull nodes
  else throw (.unsupportedFunction token.text token.position)

/-- A value, a call, or a `group`, which is told where its parenthesis was opened. -/
def primary (group : (opened : Nat) → Reading Node) (arguments : (opened : Nat) → Reading (List Node)) :
    Reading Node := do
  let token ← next
  match token.kind with
  | .paren => if token.isParen '(' then group token.position else value token
  | .function => call arguments token
  | .identifier =>
    if startsWithParen '(' (← get).ahead then throw (.unsupportedFunction token.text token.position) else value token
  | _ => value token

/-- What follows a comparison operator. The left side has to be a value, so that comparisons do not chain. -/
def comparison (operand : Reading Node) (items : (opened : Nat) → Reading (List Node)) (left : Node)
    (operator : Comparison) (token : Token) : Reading Node := do
  if left.isCondition then throw (unexpected token)
  else match operator with
    | .isIn | .notIn =>
      let opened ← opening operator.symbol
      let nodes ← items opened
      return .comparison left operator (.list nodes)
    | .between =>
      let low ← operand
      betweenAnd
      let high ← operand
      return .comparison left operator (.range low high)
    | _ =>
      let right ← operand
      ordered left operator right

/-- The operators behind `left` that bind at least as tightly as `least`, with their right sides; `bound` is the
    count of operators that may still follow. -/
def climb (right : (least : Nat) → Reading Node) (compared : Node → Comparison → Token → Reading Node)
    (least : Nat) : (bound : Nat) → Node → Reading Node
  | 0, left => return left
  | bound + 1, left => do
    match (← get).ahead with
    | [] => return left
    | token :: _ =>
      match BinaryOperator.ofToken? token with
      | none => return left
      | some found =>
        if found.precedence < least then return left
        else
          let _ ← next
          match found with
          | .connective operator =>
            let node ← right (operator.precedence + 1)
            climb right compared least bound (.logical operator left node)
          | .comparison operator =>
            let node ← compared left operator token
            climb right compared least bound node

/-! ### Expressions

What the recursion goes down on is a budget. As long as it is more than the levels that are left, the cursor comes to its
limit first, so the budget has no say in the answer. -/

mutual

/-- An expression whose operators bind at least as tightly as `least`. -/
def expression : (budget : Nat) → (least : Nat) → Reading Node
  | 0, _ => do throw (.tooDeep (← get).maxDepth)
  | budget + 1, least => deeper do
    let left ← primary (enclosed (expression budget 0)) (nested (commaList (expression budget 0)))
    climb (expression budget) (comparison (operand budget) (nested (commaList (operand budget)))) least
      (← get).ahead.length left

/-- An operand of a comparison. -/
def operand : (budget : Nat) → Reading Node
  | 0 => do throw (.tooDeep (← get).maxDepth)
  | budget + 1 => primary (nested (operand budget)) (nested (commaList (expression budget 0)))

end

end Cursor

end Parser

/-! ### Filters -/

/-- The tree of a filter, and the names that it needs values for: those known before, then its placeholders, each at
    its first place only. -/
structure ParsedFilter where
  ast : Node
  names : List String

namespace ParsedFilter

/-- The greatest depth where none is asked for. -/
def defaultMaxDepth : Nat := 256

/-- The filter that a list of tokens spells. -/
def ofTokens (maxDepth : Nat) (known : List String) (tokens : List Token) : Except ParseError ParsedFilter :=
  match tokens.getLast? with
  | none => .error .emptyInput
  | some last => do
    let start := Parser.Cursor.start ⟨last.stop, maxDepth⟩ known tokens
    let (ast, cursor) ← Parser.Cursor.expression (maxDepth + 1) 0 start
    match cursor.ahead with
    | [] => return ⟨ast, cursor.names⟩
    | token :: _ => .error (Parser.unexpected token)

/-- The filter that a text spells; a whole query is none. -/
def ofText (maxDepth : Nat) (known : List String) (text : String) : Except ParseError (Option ParsedFilter) :=
  if WholeQuery.isWholeQuery text then .ok none
  else match Token.ofText text with
    | .error e => .error (.lex e)
    | .ok tokens => (ofTokens maxDepth known tokens).map some

end ParsedFilter

end GridFilter
