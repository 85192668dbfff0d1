import GridFilter.Proofs.Node.Parts
import GridFilter.Proofs.Parser.Steps

/-! What is gathered from the constants of a tree. Every token is part of the tree once, and a comparison that changes its
    sides moves a field, so the same is gathered from the tokens, in the same order. -/

namespace GridFilter.Grammar
open Node

variable {α : Type} {ofNode : Node → Option α} {ofToken : Token → Option α}

/-- The kinds of the tokens that are no values. -/
def markKinds : List TokenKind := [.operator, .function, .paren, .comma]

/-- A token gives what its tree gives. Marks give nothing, and neither do nodes other than constants. -/
structure Gathers (ofNode : Node → Option α) (ofToken : Token → Option α) : Prop where
  spelled {token : Token} {node : Node} : Spells token node → ofNode node = ofToken token
  mark {token : Token} : token.kind ∈ markKinds → ofToken token = none
  other {node : Node} : node.isConstant = false → ofNode node = none

theorem Spells.parts {token : Token} {node : Node} (h : Spells token node) : node.parts = [node] := by
  cases h <;> rw [Node.parts]

theorem mark_of_isParen {token : Token} {paren : Char} (h : token.isParen paren = true) : token.kind ∈ markKinds := by
  rw [Parser.isParen_kind h]
  decide

theorem mark_of_isOperator {token : Token} {symbol : String} (h : token.isOperator symbol = true) :
    token.kind ∈ markKinds := by
  rw [Parser.isOperator_kind h]
  decide

namespace Gathers

theorem joined (h : Gathers ofNode ofToken) {first second : List Token} {sign : Token} (hsign : sign.kind ∈ markKinds) :
    (first ++ sign :: second).filterMap ofToken = first.filterMap ofToken ++ second.filterMap ofToken := by
  rw [List.filterMap_append, List.filterMap_cons_none (h.mark hsign)]

theorem enclosed (h : Gathers ofNode ofToken) {inner : List Token} {opened closed : Token}
    (hopened : opened.isParen '(' = true) (hclosed : closed.isParen ')' = true) :
    (opened :: (inner ++ [closed])).filterMap ofToken = inner.filterMap ofToken := by
  rw [List.filterMap_cons_none (h.mark (mark_of_isParen hopened)), h.joined (mark_of_isParen hclosed),
    List.filterMap_nil, List.append_nil]

theorem comparison (h : Gathers ofNode ofToken) {subject : Node} {operator : Comparison} {operand : Operand} :
    (Node.comparison subject operator operand).parts.filterMap ofNode =
      subject.parts.filterMap ofNode ++ (operandParts operand).filterMap ofNode := by
  rw [parts, List.filterMap_cons_none (h.other rfl), List.filterMap_append]

/-- The sides of a comparison change places only where the right one is a field, which gives nothing. -/
theorem arranged (h : Gathers ofNode ofToken) {left node : Node} {operator : Comparison} {right : Operand}
    (harranged : Arranged left operator right node) :
    node.parts.filterMap ofNode = left.parts.filterMap ofNode ++ (operandParts right).filterMap ofNode := by
  cases harranged with
  | list | range | kept => exact h.comparison
  | @turned right hfield =>
    cases right with
    | field name =>
      have hnone : (Node.field name).parts.filterMap ofNode = [] := List.filterMap_cons_none (h.other rfl)
      rw [operandParts, Node.compare, h.comparison, operandParts, hnone, List.nil_append, List.append_nil]
    | _ => cases hfield

/-- The same is gathered from the nodes of a tree and from the tokens that spell it. -/
theorem compositional (h : Gathers ofNode ofToken) :
    Compositional (fun used node => node.parts.filterMap ofNode = used.filterMap ofToken)
      (fun used nodes => (listParts nodes).filterMap ofNode = used.filterMap ofToken)
      (fun used right => (operandParts right).filterMap ofNode = used.filterMap ofToken) where
  value hspells := by
    rw [hspells.parts, List.filterMap_cons, List.filterMap_cons, h.spelled hspells]
    rfl
  group hopened hinner hclosed := by rw [h.enclosed hopened hclosed, hinner]
  call hkind hopened harguments _ hclosed := by
    rw [parts, List.filterMap_cons_none (h.other rfl), List.filterMap_cons_none (h.mark (hkind ▸ by decide)),
      harguments, h.enclosed hopened hclosed]
  logical hfirst hsign hsecond := by
    rw [h.joined (mark_of_isOperator hsign), ← hfirst, ← hsecond, parts, List.filterMap_cons_none (h.other rfl), List.filterMap_append]
  compared hfirst _ hsign _ hothers harranged := by
    rw [h.joined (mark_of_isOperator hsign), ← hfirst, ← hothers, h.arranged harranged]
  one hnode := by rw [listParts, listParts, List.append_nil, hnode]
  more hfirst hcomma hothers := by
    rw [h.joined (hcomma ▸ by decide), ← hfirst, ← hothers, listParts, List.filterMap_append]
  list hopened hitems hclosed := by rw [h.enclosed hopened hclosed, operandParts, hitems]
  range hlow hsign hhigh := by
    rw [h.joined (mark_of_isOperator hsign), ← hlow, ← hhigh, operandParts, List.filterMap_append]
  single hnode := by rw [operandParts, hnode]

end Gathers

end GridFilter.Grammar
