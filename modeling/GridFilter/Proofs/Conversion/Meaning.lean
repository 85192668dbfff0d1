import GridFilter.Proofs.Conversion.Cases
import GridFilter.Proofs.Value.Equality

/-! What a grid filter means does not depend on how it was converted. A valuation says which conditions hold, and a
    filter is then true or false as its groups say. Short-circuiting and expanding lists change the filter, but never
    its truth. -/

namespace GridFilter

/-! ### Truth -/

namespace Connective

/-- The truth of two parts joined by a connective. -/
def join : Connective → Bool → Bool → Bool
  | .and, a, b => a && b
  | .or, a, b => a || b

/-- The truth of any number of parts joined by a connective. -/
def joinAll (connective : Connective) (truths : List Bool) : Bool :=
  truths.foldr connective.join connective.identity

variable (connective : Connective) (a : Bool)

@[simp] theorem join_identity : connective.join connective.identity a = a := by
  cases connective <;> cases a <;> rfl

@[simp] theorem join_identity_right : connective.join a connective.identity = a := by
  cases connective <;> cases a <;> rfl

@[simp] theorem join_absorbing : connective.join connective.absorbing a = connective.absorbing := by
  cases connective <;> cases a <;> rfl

theorem join_absorbing_right : connective.join a connective.absorbing = connective.absorbing := by
  cases connective <;> cases a <;> rfl

theorem join_assoc (b c : Bool) :
    connective.join (connective.join a b) c = connective.join a (connective.join b c) := by
  cases connective <;> cases a <;> cases b <;> cases c <;> rfl

/-- A truth value that does not decide a group on its own changes nothing in it. -/
theorem eq_identity {connective : Connective} {a : Bool} (h : a ≠ connective.absorbing) : a = connective.identity := by
  cases connective <;> cases a <;> simp_all [identity, absorbing]

@[simp] theorem joinAll_nil : connective.joinAll [] = connective.identity := rfl

@[simp] theorem joinAll_cons (truths : List Bool) :
    connective.joinAll (a :: truths) = connective.join a (connective.joinAll truths) := rfl

theorem joinAll_append (truths others : List Bool) :
    connective.joinAll (truths ++ others) =
      connective.join (connective.joinAll truths) (connective.joinAll others) := by
  induction truths with
  | nil => simp
  | cons b rest ih => simp [ih, join_assoc]

theorem joinAll_of_mem_absorbing {connective : Connective} {truths : List Bool} (h : connective.absorbing ∈ truths) :
    connective.joinAll truths = connective.absorbing := by
  induction truths with
  | nil => simp at h
  | cons b rest ih =>
    rcases List.mem_cons.mp h with rfl | h
    · simp
    · simp [ih h, join_absorbing_right]

theorem joinAll_or (truths : List Bool) : Connective.or.joinAll truths = truths.any id := by
  induction truths with
  | nil => rfl
  | cons b rest ih => simp [ih, join]

end Connective

/-- Which conditions and which bare operands hold. Between two values a condition holds as they decide it, and a list
    condition says what the equations with its items say together. -/
structure Valuation where
  condition : Grid → GridOperator → Grid → Bool
  operand : Grid → Bool
  condition_values : ∀ (l r : Value) (comparison : Comparison) (b : Bool), comparison.isRelational = true →
    l.decideStrictly? comparison r = some b → condition (.value l) (.ofComparison comparison) (.value r) = b
  condition_list : ∀ (left item : Grid) (rest : List Grid), condition left .isIn (.list (item :: rest)) =
    (item :: rest).any fun x => condition left .eq x
  condition_nil : ∀ left : Grid, condition left .isIn (.list []) = condition left .eq (.list [])

namespace Valuation

/-- The relational comparison that a grid operator says. -/
def comparison? (operator : GridOperator) : Option Comparison :=
  Comparison.all.find? fun comparison => comparison.isRelational && .ofComparison comparison == operator

/-- Two values satisfy the comparison that a grid operator says. -/
def related (left : Grid) (operator : GridOperator) (right : Grid) : Bool :=
  match left, right with
  | .value l, .value r => (comparison? operator).any fun comparison => l.decideStrictly? comparison r == some true
  | _, _ => false

theorem comparison?_ofComparison {comparison : Comparison} (h : comparison.isRelational = true) :
    comparison? (.ofComparison comparison) = some comparison := by
  cases comparison with
  | eq | ne | gt | ge | lt | le => rfl
  | isIn | notIn | between | like | notLike => cases h

/-- The valuation under which nothing holds but what values decide. -/
instance : Inhabited Valuation where
  default :=
    { condition := fun left operator right =>
        match operator, right with
        | .isIn, .list (item :: rest) => (item :: rest).any (related left .eq)
        | _, _ => related left operator right
      operand := fun _ => false
      condition_values := by
        intro l r comparison b hrelational hdecided
        have hrelated : related (.value l) (.ofComparison comparison) (.value r) = b := by
          simp [related, comparison?_ofComparison hrelational, hdecided]
        cases comparison <;> exact hrelated
      condition_list := fun _ _ _ => rfl
      condition_nil := fun left => by cases left <;> rfl }

end Valuation

namespace Grid
variable (v : Valuation)

mutual

/-- The truth of a grid filter: groups are conjunctions and disjunctions. -/
def truth : Grid → Bool
  | .bool b => b
  | .condition left operator right => v.condition left operator right
  | .group connective operands => connective.joinAll (truths operands)
  | .value x => v.operand (.value x)
  | .field name => v.operand (.field name)
  | .list items => v.operand (.list items)

/-- The truth of each filter of a list. -/
def truths : List Grid → List Bool
  | [] => []
  | operand :: rest => truth operand :: truths rest

end

theorem truths_eq_map (operands : List Grid) : truths v operands = operands.map (truth v) := by
  induction operands with
  | nil => rfl
  | cons operand rest ih => simp [truths, ih]

@[simp] theorem truth_group (connective : Connective) (operands : List Grid) :
    (group connective operands).truth v = connective.joinAll (operands.map (truth v)) := by
  rw [truth, truths_eq_map]

end Grid

/-! ### Plain trees -/

namespace Node

/-- A literal, a field or a placeholder. -/
def isSimple : Node → Bool
  | .literal _ | .field _ | .placeholder _ => true
  | _ => false

/-- A simple node, or a call of `ISNULL` with two simple arguments or more. -/
def isPlainOperand : Node → Bool
  | .isNull arguments => decide (leastArguments ≤ arguments.length) && arguments.all isSimple
  | node => node.isSimple

/-- A right side of a comparison that holds no comparison itself. -/
def isPlainSide : Operand → Bool
  | .single node => node.isPlainOperand
  | .list nodes => nodes.all isPlainOperand
  | .range low high => low.isPlainOperand && high.isPlainOperand

/-- Connectives over comparisons of plain operands, and over plain operands by themselves. -/
def isPlain : Node → Bool
  | .logical _ left right => left.isPlain && right.isPlain
  | .comparison subject _ operand => subject.isPlainOperand && isPlainSide operand
  | node => node.isPlainOperand

mutual

/-- The names of the placeholders that calls of `ISNULL` have for their first argument, from left to right. -/
def coalescedNames : Node → List String
  | .logical _ left right => left.coalescedNames ++ right.coalescedNames
  | .comparison subject _ operand => subject.coalescedNames ++ sideCoalescedNames operand
  | .isNull (.placeholder name :: rest) => name :: listCoalescedNames rest
  | .isNull arguments => listCoalescedNames arguments
  | .field _ | .literal _ | .placeholder _ => []

/-- These names of an operand. -/
def sideCoalescedNames : Operand → List String
  | .single node => node.coalescedNames
  | .list nodes => listCoalescedNames nodes
  | .range low high => low.coalescedNames ++ high.coalescedNames

/-- These names of a list of nodes. -/
def listCoalescedNames : List Node → List String
  | [] => []
  | node :: rest => node.coalescedNames ++ listCoalescedNames rest

end

end Node

namespace Conversion
open Grid

variable {v : Valuation} (setting : Setting)

/-! ### Joining -/

theorem joinAll_spliced (connective : Connective) (operand : Grid) :
    connective.joinAll ((spliced connective operand).map (truth v)) = operand.truth v := by
  unfold spliced
  split
  · next inner operands =>
    split
    · next h => rw [h, truth_group]
    · simp
  · simp

/-- Splicing groups, and leaving out truth values that decide nothing, keeps the truth of a list of operands. -/
theorem joinAll_kept {shortCircuit : Bool} {connective : Connective} {operands : List Grid}
    (h : shortCircuit = true → ∀ operand ∈ operands, operand.bool? ≠ some connective.absorbing) :
    connective.joinAll (((undecided shortCircuit operands).flatMap (spliced connective)).map (truth v)) =
      connective.joinAll (operands.map (truth v)) := by
  induction operands with
  | nil => simp [undecided]
  | cons operand rest ih =>
    have ih := ih fun hs other hother => h hs other (List.mem_cons_of_mem _ hother)
    have step : connective.joinAll (((undecided shortCircuit [operand]).flatMap (spliced connective)).map (truth v)) =
        operand.truth v := by
      cases shortCircuit with
      | false => simpa [undecided] using joinAll_spliced connective operand
      | true =>
        cases hb : operand.bool? with
        | none => simpa [undecided, hb] using joinAll_spliced connective operand
        | some b =>
          have hne : b ≠ connective.absorbing := by simpa [hb] using h rfl operand (by simp)
          rw [bool?_eq_some hb]
          simp [undecided, bool?, truth, Connective.eq_identity hne]
    have split : undecided shortCircuit (operand :: rest) =
        undecided shortCircuit [operand] ++ undecided shortCircuit rest := by
      cases shortCircuit <;> simp [undecided, List.filter_cons]
      split <;> simp
    rw [split, List.flatMap_append, List.map_append, Connective.joinAll_append, step, ih]
    rfl

/-- Joined operands are as true as their connective makes them, with or without short-circuiting. -/
theorem truth_combine (shortCircuit : Bool) (connective : Connective) (operands : List Grid) :
    (combine shortCircuit connective operands).truth v = connective.joinAll (operands.map (truth v)) := by
  unfold combine
  split
  · next h =>
    obtain ⟨-, operand, hmem, hb⟩ : shortCircuit = true ∧ ∃ operand ∈ operands,
        operand.bool? = some connective.absorbing := by simpa using h
    have : connective.absorbing ∈ operands.map (truth v) :=
      List.mem_map.mpr ⟨operand, hmem, by rw [bool?_eq_some hb]; rfl⟩
    rw [Connective.joinAll_of_mem_absorbing this]
    rfl
  · next h =>
    rw [← joinAll_kept (by simpa using h)]
    split
    · next hnil => simp [hnil, truth]
    · next operand hone => simp [hone]
    · next => exact truth_group v _ _

theorem joinAll_operands (connective : Connective) (part : Part) :
    connective.joinAll ((part.operands setting connective).map (truth v)) = (part.grid setting).truth v := by
  cases part with
  | chain inner operands =>
    by_cases h : inner = connective
    · rw [Part.operands, if_pos h, Part.grid, truth_combine, h]
    · simp [Part.operands, h]
  | _ => simp [Part.operands]

theorem truth_joined (connective : Connective) (left right : Part) :
    ((joined setting connective left right).grid setting).truth v =
      connective.join ((left.grid setting).truth v) ((right.grid setting).truth v) := by
  rw [joined, Part.grid, truth_combine, List.map_append, Connective.joinAll_append, joinAll_operands]
  simp

/-! ### Comparisons -/

/-- A condition keeps its truth when it is decided. -/
theorem truth_foldCondition (left : Grid) {operator : Comparison} (hop : operator.isRelational = true) (right : Grid) :
    (foldCondition setting left operator right).truth v = v.condition left (.ofComparison operator) right := by
  rcases foldCondition_cases setting left operator right with h | ⟨-, l, r, b, rfl, rfl, hdecided, h⟩
  · rw [h, truth]
  · rw [h, truth, v.condition_values l r operator b hop (Value.decideStrictly?_of_decide? hdecided)]

/-- `ISNULL` over a field holds where the field does, and where it is null if the default does. -/
theorem truth_coalescedCondition (name : String) (default : Grid) (operator : Comparison) (right : Grid) :
    (coalescedCondition setting name default operator right).truth v =
      (v.condition (.field name) (.ofComparison operator) right ||
        defaultMatches default operator right && v.condition (.field name) .eq (.value .null)) := by
  unfold coalescedCondition
  split
  · next h => simp [truth_combine, truth, h, Connective.join, Connective.identity, Connective.absorbing]
  · next h => simp [truth, h]

theorem truth_eachItem (left : Grid) {operator : Comparison} (hop : operator.isRelational = true)
    (connective : Connective) {items : List Grid} (hne : items ≠ []) :
    (eachItem setting left operator connective items).truth v =
      connective.joinAll (items.map (v.condition left (.ofComparison operator))) := by
  have hfold : truth v ∘ foldCondition setting left operator = v.condition left (.ofComparison operator) := by
    funext item
    exact truth_foldCondition setting left hop item
  unfold eachItem
  split
  · exact absurd rfl hne
  · rw [truth_combine, List.map_map, hfold]

/-- Expanded into its items, a list condition says the same. -/
theorem truth_eachItem_eq (left : Grid) (items : List Grid) :
    (eachItem setting left .eq .or items).truth v = v.condition left .isIn (.list items) := by
  cases items with
  | nil => exact (v.condition_nil left).symm
  | cons item rest =>
    rw [truth_eachItem setting left rfl .or (by simp), v.condition_list, Connective.joinAll_or, List.any_map]
    rfl

/-- The setting that keeps comparisons undecided and lists whole, with the same source of values. -/
def Setting.plain (setting : Setting) : Setting := { setting with shortCircuit := false, expandIn := false }

theorem truth_membership (left : Grid) (negated : Bool) (items : List Grid) :
    (membership setting left negated items).truth v = (membership setting.plain left negated items).truth v := by
  unfold membership
  cases negated with
  | false =>
    cases setting.expandIn with
    | true => exact truth_eachItem_eq setting left _
    | false => rfl
  -- `NOT IN` is expanded with every option, but for an empty list.
  | true =>
    cases h : expandedItems items with
    | nil => rfl
    | cons item rest =>
      have hne : item :: rest ≠ [] := by simp
      rw [if_pos rfl, if_pos rfl, truth_eachItem setting left rfl .and hne,
        truth_eachItem setting.plain left rfl .and hne]

/-! ### Operands -/

variable {setting}

/-- A part that can stand beside an operator; where it is `ISNULL` over a placeholder, that one is not null. -/
def OperandPart (setting : Setting) : Part → Prop
  | .chain _ _ => False
  | .placeholderOr name _ => setting.resolve name ≠ some .null
  | _ => True

theorem grid_plain {part : Part} (h : OperandPart setting part) : part.grid setting.plain = part.grid setting := by
  cases part with
  | chain => exact absurd h id
  | _ => rfl

/-- `ISNULL` over a placeholder that is known and not null is decided as the value of the placeholder. -/
theorem decided_operand {call other : Part} {operator : Comparison} {b : Bool} (hcall : OperandPart setting call)
    (h : decideCoalesced? setting call operator other = some b) :
    ∃ x literal, call.grid setting = .value x ∧ other = .literal literal ∧
      (∀ name default, call ≠ .fieldOr name default) ∧
      x.decideStrictly? operator literal = some b := by
  obtain ⟨name, default, x, literal, rfl, rfl, hx, hdecided⟩ := decideCoalesced?_eq_some h
  have hresolve : setting.resolve name = some x := by
    unfold coalescedValue? at hx
    split at hx
    · next hnull => exact absurd hnull hcall
    · exact hx
  refine ⟨x, literal, ?_, rfl, by simp, hdecided⟩
  simp [Part.grid, Resolver.valueOf, hresolve]

theorem truth_undecidedRelational {left right : Part} {operator : Comparison} (hop : operator.isRelational = true)
    (hleft : OperandPart setting left) (hright : OperandPart setting right) :
    (undecidedRelational setting left operator right).truth v =
      (undecidedRelational setting.plain left operator right).truth v := by
  unfold undecidedRelational
  split
  · rw [truth_coalescedCondition, truth_coalescedCondition, grid_plain hright]
  · rw [truth_coalescedCondition, truth_coalescedCondition, grid_plain hleft]
  · rw [truth_foldCondition _ _ hop, truth_foldCondition _ _ hop, grid_plain hleft, grid_plain hright]

theorem truth_relational {left right : Part} {operator : Comparison} (hop : operator.isRelational = true)
    (hleft : OperandPart setting left) (hright : OperandPart setting right) :
    (relational setting left operator right).truth v = (undecidedRelational setting left operator right).truth v := by
  rcases relational_cases setting left operator right with h | ⟨-, b, hdecided, h⟩
  · rw [h]
  · rw [h, truth]
    rcases hdecided with hdecided | hdecided
    · obtain ⟨x, literal, hx, rfl, hcall, hstrict⟩ := decided_operand hleft hdecided
      rw [undecidedRelational_of_values hcall (by simp), truth_foldCondition _ _ hop, hx]
      exact (v.condition_values x literal operator b hop hstrict).symm
    -- The call stands on the right: the operator was inverted to decide it.
    · obtain ⟨x, literal, hx, rfl, hcall, hstrict⟩ := decided_operand hright hdecided
      rw [undecidedRelational_of_values (by simp) hcall, truth_foldCondition _ _ hop, hx]
      rw [← Value.decideStrictly?_inverse] at hstrict
      exact (v.condition_values literal x operator b hop hstrict).symm

/-- A right side whose parts can all stand beside an operator. -/
def OperandSide (setting : Setting) : Side → Prop
  | .single part => OperandPart setting part
  | .list parts => ∀ part ∈ parts, OperandPart setting part
  | .range low high => OperandPart setting low ∧ OperandPart setting high

theorem items_plain {right : Side} (h : OperandSide setting right) :
    right.items setting.plain = right.items setting := by
  cases right with
  | single part => simp [Side.items, grid_plain h]
  | list parts => exact List.map_congr_left fun part hpart => grid_plain (h part hpart)
  | range low high => simp [Side.items, grid_plain h.1, grid_plain h.2]

theorem side_grid_plain {right : Side} (h : OperandSide setting right) :
    right.grid setting.plain = right.grid setting := by
  have hitems := items_plain h
  cases right with
  | single part => exact grid_plain h
  | list parts => exact congrArg Grid.list hitems
  | range low high => exact congrArg Grid.list hitems

/-- A comparison is as true as the one that is neither decided nor expanded. -/
theorem truth_comparison {left : Part} (operator : Comparison) {right : Side} (hleft : OperandPart setting left)
    (hright : OperandSide setting right) :
    (comparison setting left operator right).truth v = (comparison setting.plain left operator right).truth v := by
  have hplain : plainCondition setting left operator right = plainCondition setting.plain left operator right := by
    simp only [plainCondition, grid_plain hleft, side_grid_plain hright]
  cases operator with
  | isIn | notIn =>
    simp only [comparison, grid_plain hleft, items_plain hright]
    exact truth_membership setting _ _ _
  | between | like | notLike => exact congrArg (truth v) hplain
  | eq | ne | gt | ge | lt | le =>
    cases right with
    | single part =>
      exact (truth_relational rfl hleft hright).trans (truth_undecidedRelational rfl hleft hright)
    | list | range => exact congrArg (truth v) hplain

/-! ### Trees -/

theorem part_plain_of_isSimple {node : Node} (h : node.isSimple = true) :
    part setting.plain node = part setting node ∧ OperandPart setting (part setting node) := by
  cases node <;> simp_all [Node.isSimple, part, OperandPart]

theorem parts_plain_of_isSimple {nodes : List Node} (h : nodes.all Node.isSimple = true) :
    parts setting.plain nodes = parts setting nodes ∧ ∀ part ∈ parts setting nodes, OperandPart setting part := by
  induction nodes with
  | nil => simp [parts]
  | cons node rest ih =>
    rw [List.all_cons, Bool.and_eq_true] at h
    obtain ⟨hnode, hpart⟩ := @part_plain_of_isSimple setting node h.1
    obtain ⟨hrest, hparts⟩ := ih h.2
    exact ⟨by rw [parts, parts, hnode, hrest], by simpa [parts] using ⟨hpart, hparts⟩⟩

theorem part_plain {node : Node} (h : node.isPlainOperand = true)
    (hnull : ∀ name ∈ node.coalescedNames, setting.resolve name ≠ some .null) :
    part setting.plain node = part setting node ∧ OperandPart setting (part setting node) := by
  cases node with
  | literal | field | placeholder => exact part_plain_of_isSimple rfl
  | logical | comparison => simp [Node.isPlainOperand, Node.isSimple] at h
  | isNull arguments =>
    simp only [Node.isPlainOperand, Bool.and_eq_true, decide_eq_true_eq] at h
    obtain ⟨hparts, hoperands⟩ := @parts_plain_of_isSimple setting arguments h.2
    -- Only `ISNULL` over a field or a placeholder has a default in it, and that is the same with every option.
    rw [part, part, hparts]
    match arguments, h.1 with
    | first :: default :: others, _ =>
      have hdefault := grid_plain (hoperands (part setting default) (by simp [parts]))
      cases first with
      | logical | comparison | isNull => simp [Node.isSimple] at h
      | field name => simp [parts, part, coalesced, hdefault, OperandPart]
      | literal value => simp [parts, part, coalesced, Part.grid, OperandPart]
      | placeholder name =>
        have hname : setting.resolve name ≠ some .null := hnull name (by simp [Node.coalescedNames])
        simp [parts, part, coalesced, hdefault, OperandPart, hname]

theorem parts_plain {nodes : List Node} (h : nodes.all Node.isPlainOperand = true)
    (hnull : ∀ name ∈ Node.listCoalescedNames nodes, setting.resolve name ≠ some .null) :
    parts setting.plain nodes = parts setting nodes ∧ ∀ part ∈ parts setting nodes, OperandPart setting part := by
  induction nodes with
  | nil => simp [parts]
  | cons node rest ih =>
    rw [List.all_cons, Bool.and_eq_true] at h
    simp only [Node.listCoalescedNames, List.mem_append, or_imp, forall_and] at hnull
    obtain ⟨hnode, hpart⟩ := part_plain h.1 hnull.1
    obtain ⟨hrest, hparts⟩ := ih h.2 hnull.2
    exact ⟨by rw [parts, parts, hnode, hrest], by simpa [parts] using ⟨hpart, hparts⟩⟩

theorem side_plain {operand : Operand} (h : Node.isPlainSide operand = true)
    (hnull : ∀ name ∈ Node.sideCoalescedNames operand, setting.resolve name ≠ some .null) :
    side setting.plain operand = side setting operand ∧ OperandSide setting (side setting operand) := by
  cases operand with
  | single node =>
    obtain ⟨hnode, hpart⟩ := part_plain h hnull
    exact ⟨by rw [side, side, hnode], hpart⟩
  | list nodes =>
    obtain ⟨hnodes, hparts⟩ := parts_plain h hnull
    exact ⟨by rw [side, side, hnodes], hparts⟩
  | range low high =>
    rw [Node.isPlainSide, Bool.and_eq_true] at h
    simp only [Node.sideCoalescedNames, List.mem_append, or_imp, forall_and] at hnull
    obtain ⟨hlow, hlowPart⟩ := part_plain h.1 hnull.1
    obtain ⟨hhigh, hhighPart⟩ := part_plain h.2 hnull.2
    exact ⟨by rw [side, side, hlow, hhigh], hlowPart, hhighPart⟩

theorem truth_grid_operand {node : Node} (h : node.isPlainOperand = true)
    (hnull : ∀ name ∈ node.coalescedNames, setting.resolve name ≠ some .null) :
    (grid setting node).truth v = (grid setting.plain node).truth v := by
  obtain ⟨hnode, hpart⟩ := part_plain h hnull
  rw [grid, grid, hnode, grid_plain hpart]

/-- A plain tree is as true as it is with nothing decided and nothing expanded. -/
theorem truth_grid : ∀ {node : Node}, node.isPlain = true →
    (∀ name ∈ node.coalescedNames, setting.resolve name ≠ some .null) →
    (grid setting node).truth v = (grid setting.plain node).truth v
  | .logical connective left right, h, hnull => by
    rw [Node.isPlain, Bool.and_eq_true] at h
    simp only [Node.coalescedNames, List.mem_append, or_imp, forall_and] at hnull
    have hleft := truth_grid h.1 hnull.1
    have hright := truth_grid h.2 hnull.2
    unfold grid at hleft hright ⊢
    rw [part, part, truth_joined, truth_joined, hleft, hright]
  | .comparison subject operator operand, h, hnull => by
    rw [Node.isPlain, Bool.and_eq_true] at h
    simp only [Node.coalescedNames, List.mem_append, or_imp, forall_and] at hnull
    obtain ⟨hsubject, hpart⟩ := part_plain h.1 hnull.1
    obtain ⟨hoperand, hside⟩ := side_plain h.2 hnull.2
    rw [grid, grid, part, part, hsubject, hoperand]
    exact truth_comparison operator hpart hside
  | .literal _, h, hnull | .field _, h, hnull | .placeholder _, h, hnull => truth_grid_operand h hnull
  | .isNull _, h, hnull => truth_grid_operand h hnull

end Conversion

/-- Options never change what a filter means. A plain tree in which no call of `ISNULL` has a placeholder that is null
    gives, with any two sets of options, grid filters that are both true or both false under every valuation. -/
theorem Node.truth_convertWith (node : Node) (resolve : Resolver) (v : Valuation) (hplain : node.isPlain = true)
    (hnull : ∀ name ∈ node.coalescedNames, resolve name ≠ some .null) (options others : ConvertOptions) :
    (node.convertWith options resolve).truth v = (node.convertWith others resolve).truth v := by
  calc (node.convertWith options resolve).truth v
    _ = (Conversion.grid ⟨false, false, resolve⟩ node).truth v := Conversion.truth_grid hplain hnull
    _ = (node.convertWith others resolve).truth v :=
      (@Conversion.truth_grid v ⟨others.shortCircuit, others.expandIn, resolve⟩ node hplain hnull).symm

/-! ### A tree with both kinds of `ISNULL` -/

/-- The only value known is the one of `Stock.Least`. -/
def leastOnly : Resolver := fun name => if name = "Stock.Least" then some (.int 3) else none

/-- `5 > ISNULL({Stock.Least}, 0) AND (Code IN (1, 2) OR ISNULL(Stock, 1) <= 3)`. -/
def shortage : Node :=
  .logical .and
    (.compare (.literal (.int 5)) .gt (.isNull [.placeholder "Stock.Least", .literal (.int 0)]))
    (.logical .or
      (.comparison (.field "Code") .isIn (.list [.literal (.int 1), .literal (.int 2)]))
      (.compare (.isNull [.field "Stock", .literal (.int 1)]) .le (.literal (.int 3))))

theorem truth_convertWith_shortage :
    (shortage.isPlain = true ∧ ∀ name ∈ shortage.coalescedNames, leastOnly name ≠ some .null) ∧
      (shortage.convertWith ⟨true, true, .firstProperty⟩ leastOnly).truth default =
        (shortage.convertWith ⟨false, false, .firstProperty⟩ leastOnly).truth default := by
  have hplain : shortage.isPlain = true := by decide
  have hnull : ∀ name ∈ shortage.coalescedNames, leastOnly name ≠ some .null := by
    simp [shortage, Node.compare, Node.coalescedNames, Node.sideCoalescedNames, Node.listCoalescedNames, leastOnly]
  exact ⟨⟨hplain, hnull⟩, Node.truth_convertWith shortage leastOnly default hplain hnull _ _⟩

end GridFilter
