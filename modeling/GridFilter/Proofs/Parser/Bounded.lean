import GridFilter.Proofs.Parser.Grammar

/-! The grammar of filters with a bound on its levels. A part that the parser reads with so many levels left spends
    one of them on the right side of a connective, on a list, on the arguments of a call and on an operand in
    parentheses; chains and lists themselves may be as long as they like. -/

namespace GridFilter.Grammar.Bounded

mutual

/-- Conjunctions joined by `OR`; the first has all levels of the whole, the others one fewer. -/
inductive Expression : Nat → List Token → Node → Prop where
  | conjunction {levels : Nat} {tokens : List Token} {node : Node} : Conjunction levels tokens node →
      Expression levels tokens node
  | or {levels : Nat} {first second : List Token} {left right : Node} {sign : Token} :
      Expression (levels + 1) first left → sign.isOperator "OR" = true → Conjunction levels second right →
      Expression (levels + 1) (first ++ sign :: second) (.logical .or left right)

/-- Conditions joined by `AND`; the first has all levels of the whole, the others one fewer. -/
inductive Conjunction : Nat → List Token → Node → Prop where
  | condition {levels : Nat} {tokens : List Token} {node : Node} : Condition levels tokens node →
      Conjunction levels tokens node
  | and {levels : Nat} {first second : List Token} {left right : Node} {sign : Token} :
      Conjunction (levels + 1) first left → sign.isOperator "AND" = true → Condition levels second right →
      Conjunction (levels + 1) (first ++ sign :: second) (.logical .and left right)

/-- A term, or a comparison of a term that is no condition itself. -/
inductive Condition : Nat → List Token → Node → Prop where
  | term {levels : Nat} {tokens : List Token} {node : Node} : Term levels tokens node →
      Condition (levels + 1) tokens node
  | compared {levels : Nat} {first others : List Token} {left node : Node} {operator : Comparison} {right : Operand}
      {sign : Token} : Term levels first left → left.isCondition = false →
      sign.isOperator operator.symbol = true → RightSide levels operator others right →
      Arranged left operator right node → Condition (levels + 1) (first ++ sign :: others) node

/-- A value, a call, or an expression in parentheses. -/
inductive Term : Nat → List Token → Node → Prop where
  | value {levels : Nat} {token : Token} {node : Node} : Spells token node → Term levels [token] node
  | call {levels : Nat} {tokens : List Token} {node : Node} : Call levels tokens node → Term levels tokens node
  | group {levels : Nat} {inner : List Token} {node : Node} {opened closed : Token} :
      opened.isParen '(' = true → Expression levels inner node → closed.isParen ')' = true →
      Term levels (opened :: (inner ++ [closed])) node

/-- A value, a call, or one of these in parentheses. -/
inductive Comparand : Nat → List Token → Node → Prop where
  | value {levels : Nat} {token : Token} {node : Node} : Spells token node → Comparand levels [token] node
  | call {levels : Nat} {tokens : List Token} {node : Node} : Call levels tokens node → Comparand levels tokens node
  | nested {levels : Nat} {inner : List Token} {node : Node} {opened closed : Token} :
      opened.isParen '(' = true → Comparand levels inner node → closed.isParen ')' = true →
      Comparand (levels + 1) (opened :: (inner ++ [closed])) node

/-- A call of the function with enough expressions between parentheses. -/
inductive Call : Nat → List Token → Node → Prop where
  | isNull {levels : Nat} {inner : List Token} {arguments : List Node} {name opened closed : Token} :
      name.kind = .function → Text.sameLetters name.text Node.functionName = true → opened.isParen '(' = true →
      Arguments levels inner arguments → Node.leastArguments ≤ arguments.length → closed.isParen ')' = true →
      Call (levels + 1) (name :: opened :: (inner ++ [closed])) (.isNull arguments)

/-- One or more expressions with commas between them. -/
inductive Arguments : Nat → List Token → List Node → Prop where
  | one {levels : Nat} {tokens : List Token} {node : Node} : Expression levels tokens node →
      Arguments levels tokens [node]
  | more {levels : Nat} {first others : List Token} {node : Node} {nodes : List Node} {comma : Token} :
      Expression levels first node → comma.kind = .comma → Arguments levels others nodes →
      Arguments levels (first ++ comma :: others) (node :: nodes)

/-- One or more comparands with commas between them. -/
inductive Items : Nat → List Token → List Node → Prop where
  | one {levels : Nat} {tokens : List Token} {node : Node} : Comparand levels tokens node → Items levels tokens [node]
  | more {levels : Nat} {first others : List Token} {node : Node} {nodes : List Node} {comma : Token} :
      Comparand levels first node → comma.kind = .comma → Items levels others nodes →
      Items levels (first ++ comma :: others) (node :: nodes)

/-- What stands on the right of a comparison: a list, a range, or one comparand. -/
inductive RightSide : Nat → Comparison → List Token → Operand → Prop where
  | list {levels : Nat} {inner : List Token} {items : List Node} {operator : Comparison} {opened closed : Token} :
      operator = .isIn ∨ operator = .notIn → opened.isParen '(' = true → Items levels inner items →
      closed.isParen ')' = true → RightSide (levels + 1) operator (opened :: (inner ++ [closed])) (.list items)
  | range {levels : Nat} {first second : List Token} {low high : Node} {sign : Token} :
      Comparand levels first low → sign.isOperator "AND" = true → Comparand levels second high →
      RightSide levels .between (first ++ sign :: second) (.range low high)
  | single {levels : Nat} {tokens : List Token} {node : Node} {operator : Comparison} :
      operator ≠ .isIn → operator ≠ .notIn → operator ≠ .between → Comparand levels tokens node →
      RightSide levels operator tokens (.single node)

end

/-! ### Levels that are spent -/

variable {levels : Nat} {used : List Token} {node : Node}

theorem Condition.pos : Condition levels used node → 0 < levels
  | .term _ => Nat.succ_pos _
  | .compared .. => Nat.succ_pos _

theorem Conjunction.pos : Conjunction levels used node → 0 < levels
  | .condition h => h.pos
  | .and .. => Nat.succ_pos _

theorem Expression.pos : Expression levels used node → 0 < levels
  | .conjunction h => h.pos
  | .or .. => Nat.succ_pos _

/-! ### Arguments -/

theorem Arguments.pos {nodes : List Node} : Arguments levels used nodes → 0 < levels
  | .one h => h.pos
  | .more h .. => h.pos

theorem Arguments.length_pos {nodes : List Node} : Arguments levels used nodes → 0 < nodes.length
  | .one _ => Nat.succ_pos _
  | .more .. => Nat.succ_pos _

/-- One more expression behind a comma is one more argument. -/
theorem Arguments.concat {comma : Token} {other used : List Token} {nodes : List Node} (hcomma : comma.kind = .comma)
    (hother : Expression levels other node) :
    Arguments levels used nodes → Arguments levels (used ++ comma :: other) (nodes ++ [node])
  | .one h => .more h hcomma (.one hother)
  | .more h hcomma' hothers => by
    rw [List.append_assoc, List.cons_append]
    exact .more h hcomma' (hothers.concat hcomma hother)

/-! ### Without the bound -/

mutual

theorem Expression.plain {levels : Nat} {used : List Token} {node : Node} :
    Expression levels used node → Grammar.Expression used node
  | .conjunction h => .conjunction h.plain
  | .or hfirst hsign hsecond => .or hfirst.plain hsign hsecond.plain

theorem Conjunction.plain {levels : Nat} {used : List Token} {node : Node} :
    Conjunction levels used node → Grammar.Conjunction used node
  | .condition h => .condition h.plain
  | .and hfirst hsign hsecond => .and hfirst.plain hsign hsecond.plain

theorem Condition.plain {levels : Nat} {used : List Token} {node : Node} :
    Condition levels used node → Grammar.Condition used node
  | .term h => .term h.plain
  | .compared hleft hvalue hsign hright hnode => .compared hleft.plain hvalue hsign hright.plain hnode

theorem Term.plain {levels : Nat} {used : List Token} {node : Node} : Term levels used node → Grammar.Term used node
  | .value h => .value h
  | .call h => .call h.plain
  | .group hopened h hclosed => .group hopened h.plain hclosed

theorem Comparand.plain {levels : Nat} {used : List Token} {node : Node} :
    Comparand levels used node → Grammar.Comparand used node
  | .value h => .value h
  | .call h => .call h.plain
  | .nested hopened h hclosed => .nested hopened h.plain hclosed

theorem Call.plain {levels : Nat} {used : List Token} {node : Node} : Call levels used node → Grammar.Call used node
  | .isNull hkind hname hopened harguments hleast hclosed =>
    .isNull hkind hname hopened harguments.plain hleast hclosed

theorem RightSide.plain {levels : Nat} {operator : Comparison} {used : List Token} {right : Operand} :
    RightSide levels operator used right → Grammar.RightSide operator used right
  | .list hoperator hopened hitems hclosed => .list hoperator hopened hitems.plain hclosed
  | .range hlow hsign hhigh => .range hlow.plain hsign hhigh.plain
  | .single hin hnot hbetween h => .single hin hnot hbetween h.plain

theorem Arguments.plain {levels : Nat} {used : List Token} {nodes : List Node} :
    Arguments levels used nodes → Separated Grammar.Expression used nodes
  | .one h => .one h.plain
  | .more hfirst hcomma hothers => .more hfirst.plain hcomma hothers.plain

theorem Items.plain {levels : Nat} {used : List Token} {nodes : List Node} :
    Items levels used nodes → Separated Grammar.Comparand used nodes
  | .one h => .one h.plain
  | .more hfirst hcomma hothers => .more hfirst.plain hcomma hothers.plain

end

end GridFilter.Grammar.Bounded
