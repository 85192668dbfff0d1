import GridFilter.Node.Parser

/-! The grammar of filters, apart from any way of reading it: which lists of tokens spell which trees, and the induction
    over what it derives. -/

namespace GridFilter

namespace Node

/-- A field by its name. -/
def isField : Node → Bool
  | .field _ => true
  | _ => false

/-- A value that is known or will be supplied: a literal or a placeholder. -/
def isConstant : Node → Bool
  | .literal _ | .placeholder _ => true
  | _ => false

end Node

namespace Grammar

/-! ### Parts without expressions inside -/

/-- A token that is a value by itself, and its tree. -/
inductive Spells : Token → Node → Prop where
  | number {token : Token} {value : Value} : token.kind = .number →
      Parser.numberOf? token.text.toList = some value → Spells token (.literal value)
  | string {token : Token} : token.kind = .string → Spells token (.literal (.string token.text))
  | null {token : Token} : token.kind = .null → Spells token (.literal .null)
  | placeholder {token : Token} : token.kind = .placeholder → Spells token (.placeholder token.text)
  | identifier {token : Token} : token.kind = .identifier → Spells token (.field token.text)

/-- One or more items with commas between them. -/
inductive Separated {α : Type} (Item : List Token → α → Prop) : List Token → List α → Prop where
  | one {tokens : List Token} {item : α} : Item tokens item → Separated Item tokens [item]
  | more {first others : List Token} {item : α} {items : List α} {comma : Token} :
      Item first item → comma.kind = .comma → Separated Item others items →
      Separated Item (first ++ comma :: others) (item :: items)

/-- The tree of a comparison of `left` with what stands on the right. Two fields are not compared, and a constant
    that is compared with a field by a relational operator goes to the right of it. -/
inductive Arranged (left : Node) (operator : Comparison) : Operand → Node → Prop where
  | list {items : List Node} : Arranged left operator (.list items) (.comparison left operator (.list items))
  | range {low high : Node} :
      Arranged left operator (.range low high) (.comparison left operator (.range low high))
  | kept {right : Node} :
      (right.isField = true → left.isField = false ∧ (left.isConstant && operator.isRelational) = false) →
      Arranged left operator (.single right) (.compare left operator right)
  | turned {right : Node} : right.isField = true → left.isConstant = true → operator.isRelational = true →
      Arranged left operator (.single right) (.compare right operator.inverse left)

/-! ### Expressions -/

mutual

/-- Conjunctions joined by `OR`, grouped to the left. -/
inductive Expression : List Token → Node → Prop where
  | conjunction {tokens : List Token} {node : Node} : Conjunction tokens node → Expression tokens node
  | or {first second : List Token} {left right : Node} {sign : Token} : Expression first left →
      sign.isOperator "OR" = true → Conjunction second right →
      Expression (first ++ sign :: second) (.logical .or left right)

/-- Conditions joined by `AND`, grouped to the left. -/
inductive Conjunction : List Token → Node → Prop where
  | condition {tokens : List Token} {node : Node} : Condition tokens node → Conjunction tokens node
  | and {first second : List Token} {left right : Node} {sign : Token} : Conjunction first left →
      sign.isOperator "AND" = true → Condition second right →
      Conjunction (first ++ sign :: second) (.logical .and left right)

/-- A term, or a comparison of a term that is no condition itself. -/
inductive Condition : List Token → Node → Prop where
  | term {tokens : List Token} {node : Node} : Term tokens node → Condition tokens node
  | compared {first others : List Token} {left node : Node} {operator : Comparison} {right : Operand}
      {sign : Token} : Term first left → left.isCondition = false → sign.isOperator operator.symbol = true →
      RightSide operator others right → Arranged left operator right node →
      Condition (first ++ sign :: others) node

/-- A value, a call, or an expression in parentheses. -/
inductive Term : List Token → Node → Prop where
  | value {token : Token} {node : Node} : Spells token node → Term [token] node
  | call {tokens : List Token} {node : Node} : Call tokens node → Term tokens node
  | group {inner : List Token} {node : Node} {opened closed : Token} : opened.isParen '(' = true →
      Expression inner node → closed.isParen ')' = true → Term (opened :: (inner ++ [closed])) node

/-- A value, a call, or one of these in parentheses. -/
inductive Comparand : List Token → Node → Prop where
  | value {token : Token} {node : Node} : Spells token node → Comparand [token] node
  | call {tokens : List Token} {node : Node} : Call tokens node → Comparand tokens node
  | nested {inner : List Token} {node : Node} {opened closed : Token} : opened.isParen '(' = true →
      Comparand inner node → closed.isParen ')' = true → Comparand (opened :: (inner ++ [closed])) node

/-- A call of the function with enough expressions between parentheses. -/
inductive Call : List Token → Node → Prop where
  | isNull {inner : List Token} {arguments : List Node} {name opened closed : Token} : name.kind = .function →
      Text.sameLetters name.text Node.functionName = true → opened.isParen '(' = true →
      Separated Expression inner arguments → Node.leastArguments ≤ arguments.length →
      closed.isParen ')' = true → Call (name :: opened :: (inner ++ [closed])) (.isNull arguments)

/-- What stands on the right of a comparison: a list, a range, or one comparand. -/
inductive RightSide : Comparison → List Token → Operand → Prop where
  | list {inner : List Token} {items : List Node} {operator : Comparison} {opened closed : Token} :
      operator = .isIn ∨ operator = .notIn → opened.isParen '(' = true → Separated Comparand inner items →
      closed.isParen ')' = true → RightSide operator (opened :: (inner ++ [closed])) (.list items)
  | range {first second : List Token} {low high : Node} {sign : Token} :
      Comparand first low → sign.isOperator "AND" = true → Comparand second high →
      RightSide .between (first ++ sign :: second) (.range low high)
  | single {tokens : List Token} {node : Node} {operator : Comparison} :
      operator ≠ .isIn → operator ≠ .notIn → operator ≠ .between → Comparand tokens node →
      RightSide operator tokens (.single node)

end

/-! ### From the parts to the whole -/

/-- Statements about what the grammar derives, `Holds` about trees, `All` about lists of them and `Beside` about right
    sides, which follow for the whole from the parts. It does not matter which rule allows a part where it stands. -/
structure Compositional (Holds : List Token → Node → Prop) (All : List Token → List Node → Prop)
    (Beside : List Token → Operand → Prop) : Prop where
  value {token : Token} {node : Node} : Spells token node → Holds [token] node
  group {inner : List Token} {node : Node} {opened closed : Token} : opened.isParen '(' = true → Holds inner node →
    closed.isParen ')' = true → Holds (opened :: (inner ++ [closed])) node
  call {inner : List Token} {arguments : List Node} {name opened closed : Token} : name.kind = .function →
    opened.isParen '(' = true → All inner arguments → Node.leastArguments ≤ arguments.length →
    closed.isParen ')' = true → Holds (name :: opened :: (inner ++ [closed])) (.isNull arguments)
  logical {first second : List Token} {left right : Node} {sign : Token} {connective : Connective} :
    Holds first left → sign.isOperator connective.symbol = true → Holds second right →
    Holds (first ++ sign :: second) (.logical connective left right)
  compared {first others : List Token} {left node : Node} {operator : Comparison} {right : Operand} {sign : Token} :
    Holds first left → left.isCondition = false → sign.isOperator operator.symbol = true →
    RightSide operator others right → Beside others right → Arranged left operator right node →
    Holds (first ++ sign :: others) node
  one {used : List Token} {node : Node} : Holds used node → All used [node]
  more {first others : List Token} {node : Node} {nodes : List Node} {comma : Token} : Holds first node →
    comma.kind = .comma → All others nodes → All (first ++ comma :: others) (node :: nodes)
  list {inner : List Token} {items : List Node} {opened closed : Token} : opened.isParen '(' = true →
    All inner items → closed.isParen ')' = true → Beside (opened :: (inner ++ [closed])) (.list items)
  range {first second : List Token} {low high : Node} {sign : Token} : Holds first low →
    sign.isOperator "AND" = true → Holds second high → Beside (first ++ sign :: second) (.range low high)
  single {used : List Token} {node : Node} : Holds used node → Beside used (.single node)

namespace Compositional

variable {Holds : List Token → Node → Prop} {All : List Token → List Node → Prop} {Beside : List Token → Operand → Prop}

mutual

theorem expression (h : Compositional Holds All Beside) {used : List Token} {node : Node} :
    Expression used node → Holds used node
  | .conjunction hwhole => h.conjunction hwhole
  | .or hfirst hsign hsecond => h.logical (h.expression hfirst) hsign (h.conjunction hsecond)

theorem conjunction (h : Compositional Holds All Beside) {used : List Token} {node : Node} :
    Conjunction used node → Holds used node
  | .condition hwhole => h.condition hwhole
  | .and hfirst hsign hsecond => h.logical (h.conjunction hfirst) hsign (h.condition hsecond)

theorem condition (h : Compositional Holds All Beside) {used : List Token} {node : Node} :
    Condition used node → Holds used node
  | .term hwhole => h.term hwhole
  | .compared hleft hvalue hsign hright hnode =>
    h.compared (h.term hleft) hvalue hsign hright (h.rightSide hright) hnode

theorem term (h : Compositional Holds All Beside) {used : List Token} {node : Node} : Term used node → Holds used node
  | .value hvalue => h.value hvalue
  | .call hcall => h.callOf hcall
  | .group hopened hinner hclosed => h.group hopened (h.expression hinner) hclosed

theorem comparand (h : Compositional Holds All Beside) {used : List Token} {node : Node} :
    Comparand used node → Holds used node
  | .value hvalue => h.value hvalue
  | .call hcall => h.callOf hcall
  | .nested hopened hinner hclosed => h.group hopened (h.comparand hinner) hclosed

theorem callOf (h : Compositional Holds All Beside) {used : List Token} {node : Node} : Call used node → Holds used node
  | .isNull hkind _ hopened harguments hleast hclosed => h.call hkind hopened (h.arguments harguments) hleast hclosed

theorem rightSide (h : Compositional Holds All Beside) {operator : Comparison} {used : List Token} {right : Operand} :
    RightSide operator used right → Beside used right
  | .list _ hopened hitems hclosed => h.list hopened (h.items hitems) hclosed
  | .range hlow hsign hhigh => h.range (h.comparand hlow) hsign (h.comparand hhigh)
  | .single _ _ _ hwhole => h.single (h.comparand hwhole)

theorem arguments (h : Compositional Holds All Beside) {used : List Token} {nodes : List Node} :
    Separated Expression used nodes → All used nodes
  | .one hnode => h.one (h.expression hnode)
  | .more hfirst hcomma hothers => h.more (h.expression hfirst) hcomma (h.arguments hothers)

theorem items (h : Compositional Holds All Beside) {used : List Token} {nodes : List Node} :
    Separated Comparand used nodes → All used nodes
  | .one hnode => h.one (h.comparand hnode)
  | .more hfirst hcomma hothers => h.more (h.comparand hfirst) hcomma (h.items hothers)

end

end Compositional

end Grammar

end GridFilter
