import GridFilter.Proofs.Parser.Nesting

/-! How high the trees of filters are. A chain of one connective counts as a single node over its operands, as it is
    converted; then no tree is higher than twice the levels that it was read with, whatever the length of its chains. -/

namespace GridFilter

namespace Node

variable {node left right : Node} {connective : Connective}

/-! ### Chains and heights -/

/-- The operands of a chain of a connective, from left to right; any other node is its own operand. -/
def chainOperands (connective : Connective) : Node → List Node
  | .logical inner left right =>
    if inner = connective then left.chainOperands connective ++ [right] else [.logical inner left right]
  | node => [node]

mutual

/-- The height of a node below a chain, which a node with the same connective goes on. -/
def heightBelow (chain : Option Connective) : Node → Nat
  | .logical connective left right =>
    (if chain = some connective then 0 else 1) + max (left.heightBelow (some connective)) (right.heightBelow none)
  | .comparison subject _ operand => 1 + max (subject.heightBelow none) (operandHeight operand)
  | .isNull arguments => 1 + listHeight arguments
  | .field _ | .literal _ | .placeholder _ => 1

/-- The height of the highest node of an operand. -/
def operandHeight : Operand → Nat
  | .single node => node.heightBelow none
  | .list items => listHeight items
  | .range low high => max (low.heightBelow none) (high.heightBelow none)

/-- The height of the highest node of a list; zero for the empty list. -/
def listHeight : List Node → Nat
  | [] => 0
  | node :: rest => max (node.heightBelow none) (listHeight rest)

end

/-- The count of nodes on the longest path down the tree, where a chain of one connective is one node
    (`foldedHeight_logical`). -/
def foldedHeight (node : Node) : Nat := node.heightBelow none

theorem listHeight_append (first second : List Node) :
    listHeight (first ++ second) = max (listHeight first) (listHeight second) := by
  induction first with
  | nil => simp [listHeight]
  | cons node rest ih => rw [List.cons_append, listHeight, listHeight, ih, Nat.max_assoc]

theorem heightBelow_chain (node : Node) :
    node.heightBelow (some connective) = listHeight (node.chainOperands connective) := by
  fun_induction chainOperands connective node with
  | case1 left right ih => simp [heightBelow, listHeight_append, listHeight, ih]
  | case2 inner left right hinner => simp [heightBelow, listHeight, Ne.symm hinner]
  | case3 node hnode => cases node <;> simp_all [heightBelow, listHeight]

/-- A node with a connective is one higher than the highest operand of its chain. -/
theorem foldedHeight_logical : (Node.logical connective left right).foldedHeight =
    1 + listHeight ((Node.logical connective left right).chainOperands connective) := by
  rw [← heightBelow_chain]
  simp [foldedHeight, heightBelow]

/-- The height of the lowest condition that a node can stand in: its own, or that of a comparison of it. -/
def conditionHeight (node : Node) : Nat := if node.isCondition then node.foldedHeight else node.foldedHeight + 1

theorem conditionHeight_logical : (Node.logical connective left right).conditionHeight =
    1 + max (left.heightBelow (some connective)) right.foldedHeight := by
  simp [conditionHeight, isCondition, foldedHeight, heightBelow]

theorem heightBelow_logical : (Node.logical connective left right).heightBelow (some connective) =
    max (left.heightBelow (some connective)) right.foldedHeight := by
  simp [foldedHeight, heightBelow]

theorem foldedHeight_le_conditionHeight : node.foldedHeight ≤ node.conditionHeight := by
  unfold conditionHeight
  split <;> omega

theorem conditionHeight_of_value (h : node.isCondition = false) : node.conditionHeight = node.foldedHeight + 1 := by
  simp [conditionHeight, h]

/-- Below a chain a node is no higher than by itself. -/
theorem heightBelow_le_conditionHeight : node.heightBelow (some connective) ≤ node.conditionHeight := by
  refine Nat.le_trans ?_ foldedHeight_le_conditionHeight
  cases node with
  | logical inner left right =>
    simp only [foldedHeight, heightBelow, reduceCtorEq, if_false]
    split <;> omega
  | _ => exact Nat.le_refl _

end Node

/-! ### The heights that levels allow -/

namespace Grammar

theorem Spells.foldedHeight {token : Token} {node : Node} (h : Spells token node) : node.foldedHeight = 1 := by
  cases h <;> rfl

theorem Spells.conditionHeight {token : Token} {node : Node} (h : Spells token node) : node.conditionHeight = 2 := by
  cases h <;> rfl

theorem Arranged.conditionHeight {left node : Node} {operator : Comparison} {right : Operand}
    (h : Arranged left operator right node) :
    node.conditionHeight = 1 + max left.foldedHeight (Node.operandHeight right) := by
  cases h with
  | list | range | kept => rfl
  | turned => exact congrArg (1 + ·) (Nat.max_comm _ _)

end Grammar

namespace Grammar.Bounded
open Node

-- A chain has operands of its own level, as its first one does. Each level may so add a chain of `OR` above a chain of
-- `AND`, and below that one a comparison and a call.
mutual

theorem Expression.height {levels : Nat} {used : List Token} {node : Node} : Expression levels used node →
    node.conditionHeight ≤ 2 * levels ∧ node.heightBelow (some .or) ≤ max 2 (2 * levels - 1)
  | .conjunction h => by
    have hpos := h.pos
    have hheight := h.height.1
    have hbelow : node.heightBelow (some .or) ≤ node.conditionHeight := heightBelow_le_conditionHeight
    omega
  | .or hfirst _ hsecond => by
    have hpos := hsecond.pos
    have hleft := hfirst.height.2
    have hright := Nat.le_trans foldedHeight_le_conditionHeight hsecond.height.1
    rw [conditionHeight_logical, heightBelow_logical]
    omega

theorem Conjunction.height {levels : Nat} {used : List Token} {node : Node} : Conjunction levels used node →
    node.conditionHeight ≤ max 2 (2 * levels - 1) ∧ node.heightBelow (some .and) ≤ max 2 (2 * levels - 2)
  | .condition h => by
    have hheight := h.height
    have hbelow : node.heightBelow (some .and) ≤ node.conditionHeight := heightBelow_le_conditionHeight
    omega
  | .and hfirst _ hsecond => by
    have hpos := hsecond.pos
    have hleft := hfirst.height.2
    have hright := Nat.le_trans foldedHeight_le_conditionHeight hsecond.height
    rw [conditionHeight_logical, heightBelow_logical]
    omega

theorem Condition.height {levels : Nat} {used : List Token} {node : Node} : Condition levels used node →
    node.conditionHeight ≤ max 2 (2 * levels - 2)
  | .term h => h.height
  | .compared hleft hvalue _ hright hnode => by
    have hsubject := hleft.height
    rw [conditionHeight_of_value hvalue] at hsubject
    have hoperand := hright.height
    rw [hnode.conditionHeight]
    omega

theorem Term.height {levels : Nat} {used : List Token} {node : Node} : Term levels used node →
    node.conditionHeight ≤ max 2 (2 * levels)
  | .value h => by rw [h.conditionHeight]; omega
  | .call h => by
    obtain ⟨hvalue, hheight⟩ := h.height
    omega
  | .group _ h _ => Nat.le_trans h.height.1 (Nat.le_max_right _ _)

theorem Comparand.height {levels : Nat} {used : List Token} {node : Node} : Comparand levels used node →
    node.foldedHeight + 1 ≤ max 2 (2 * levels)
  | .value h => by rw [h.foldedHeight]; omega
  | .call h => Nat.le_trans h.height.2 (Nat.le_max_right _ _)
  | .nested _ h _ => Nat.le_trans h.height (by omega)

theorem Call.height {levels : Nat} {used : List Token} {node : Node} : Call levels used node →
    node.conditionHeight = node.foldedHeight + 1 ∧ node.foldedHeight + 1 ≤ 2 * levels
  | .isNull _ _ _ harguments _ _ => by
    have hheight := harguments.height
    refine ⟨rfl, ?_⟩
    simp only [foldedHeight, heightBelow]
    omega

theorem RightSide.height {levels : Nat} {operator : Comparison} {used : List Token} {right : Operand} :
    RightSide levels operator used right → operandHeight right + 1 ≤ max 2 (2 * levels)
  | .list _ _ hitems _ => Nat.le_trans hitems.height (by omega)
  | .range hlow _ hhigh => by
    have hfirst := hlow.height
    have hsecond := hhigh.height
    simp only [operandHeight, foldedHeight] at hfirst hsecond ⊢
    omega
  | .single _ _ _ h => h.height

theorem Arguments.height {levels : Nat} {used : List Token} {nodes : List Node} : Arguments levels used nodes →
    listHeight nodes ≤ 2 * levels
  | .one h => by
    have hnode := Nat.le_trans foldedHeight_le_conditionHeight h.height.1
    simpa [listHeight, foldedHeight] using hnode
  | .more h _ hothers => by
    have hnode := Nat.le_trans foldedHeight_le_conditionHeight h.height.1
    exact Nat.max_le.mpr ⟨hnode, hothers.height⟩

theorem Items.height {levels : Nat} {used : List Token} {nodes : List Node} : Items levels used nodes →
    listHeight nodes + 1 ≤ max 2 (2 * levels)
  | .one h => by simpa [listHeight, foldedHeight] using h.height
  | .more h _ hothers => by
    have hnode := h.height
    have hrest := hothers.height
    simp only [listHeight, foldedHeight] at hnode hrest ⊢
    omega

end

end Grammar.Bounded

namespace ParsedFilter

/-- The tree of a filter that is read with so many levels is at most twice as high, chains of one connective counted as
    single nodes. -/
theorem foldedHeight_ofTokens {maxDepth : Nat} {known : List String} {tokens : List Token} {parsed : ParsedFilter}
    (h : ofTokens maxDepth known tokens = .ok parsed) : parsed.ast.foldedHeight ≤ 2 * maxDepth :=
  Nat.le_trans Node.foldedHeight_le_conditionHeight (bounded_of_ofTokens h).height.1

/-- The tokens of `a = 1 AND b AND c OR d OR e`. -/
def chains : List Token := [⟨.identifier, "a", 0⟩, ⟨.operator, "=", 2⟩, ⟨.number, "1", 4⟩, ⟨.operator, "AND", 6⟩,
  ⟨.identifier, "b", 10⟩, ⟨.operator, "AND", 12⟩, ⟨.identifier, "c", 16⟩, ⟨.operator, "OR", 18⟩,
  ⟨.identifier, "d", 21⟩, ⟨.operator, "OR", 23⟩, ⟨.identifier, "e", 26⟩]

/-- Their tree. -/
def chainsTree : Node :=
  .logical .or (.logical .or (.logical .and (.logical .and (.compare (.field "a") .eq (.literal (.int 1)))
    (.field "b")) (.field "c")) (.field "d")) (.field "e")

theorem foldedHeight_ofTokens_chains : ofTokens 2 [] chains = .ok ⟨chainsTree, []⟩ ∧ chainsTree.depth = 6 ∧
    chainsTree.foldedHeight ≤ 2 * 2 := by
  have hparsed : ofTokens 2 [] chains = .ok ⟨chainsTree, []⟩ := by
    rw [ofTokens_eq]
    rfl
  exact ⟨hparsed, by decide, foldedHeight_ofTokens hparsed⟩

end ParsedFilter

end GridFilter
