import GridFilter.Proofs.Conversion.Meaning
import GridFilter.Proofs.Conversion.Names

/-! Values can be bound to the placeholders of a tree before it is converted, or looked up while it is: the result is
    the same. Only `ISNULL` over a placeholder tells a value that was looked up from a literal. -/

namespace GridFilter

/-! ### Binding values -/

namespace Node

mutual

/-- A tree with a literal in the place of each placeholder: the value that a source gives for it, or its name in braces
    where it gives none. -/
def bound (resolve : Resolver) : Node → Node
  | .logical connective left right => .logical connective (left.bound resolve) (right.bound resolve)
  | .comparison subject operator operand => .comparison (subject.bound resolve) operator (operandBound resolve operand)
  | .isNull arguments => .isNull (listBound resolve arguments)
  | .field name => .field name
  | .literal value => .literal value
  | .placeholder name => .literal (resolve.valueOf name)

/-- An operand with literals in the place of its placeholders. -/
def operandBound (resolve : Resolver) : Operand → Operand
  | .single node => .single (node.bound resolve)
  | .list nodes => .list (listBound resolve nodes)
  | .range low high => .range (low.bound resolve) (high.bound resolve)

/-- A list of nodes with literals in the place of their placeholders. -/
def listBound (resolve : Resolver) : List Node → List Node
  | [] => []
  | node :: rest => node.bound resolve :: listBound resolve rest

end

mutual

/-- No placeholder is left. -/
theorem placeholders_bound (resolve : Resolver) : ∀ node : Node, (node.bound resolve).placeholders = []
  | .logical _ left right => by
    rw [bound, placeholders, placeholders_bound resolve left, placeholders_bound resolve right, List.append_nil]
  | .comparison subject _ operand => by
    rw [bound, placeholders, placeholders_bound resolve subject, operandPlaceholders_bound resolve operand,
      List.append_nil]
  | .isNull arguments => listPlaceholders_bound resolve arguments
  | .field _ | .literal _ | .placeholder _ => rfl

theorem operandPlaceholders_bound (resolve : Resolver) : ∀ operand : Operand,
    operandPlaceholders (operandBound resolve operand) = []
  | .single node => placeholders_bound resolve node
  | .list nodes => listPlaceholders_bound resolve nodes
  | .range low high => by
    rw [operandBound, operandPlaceholders, placeholders_bound resolve low, placeholders_bound resolve high,
      List.append_nil]

theorem listPlaceholders_bound (resolve : Resolver) : ∀ nodes : List Node,
    listPlaceholders (listBound resolve nodes) = []
  | [] => rfl
  | node :: rest => by
    rw [listBound, listPlaceholders, placeholders_bound resolve node, listPlaceholders_bound resolve rest,
      List.append_nil]

end

/-- In a call of `ISNULL` without a placeholder for its first argument, these can only be inside the arguments. -/
theorem coalescedNames_isNull {arguments : List Node} (h : (isNull arguments).coalescedNames = []) :
    (∀ name, arguments.head? ≠ some (.placeholder name)) ∧ listCoalescedNames arguments = [] := by
  cases arguments with
  | nil => exact ⟨by simp, rfl⟩
  | cons first rest =>
    cases first with
    | placeholder name => simp [coalescedNames] at h
    | _ => exact ⟨by simp, h⟩

end Node

namespace Conversion

variable {setting : Setting} {left right part : Part} {connective : Connective} {operator : Comparison}

/-- A part with a literal in the place of a placeholder. -/
def Part.bound (resolve : Resolver) : Part → Part
  | .placeholder name => .literal (resolve.valueOf name)
  | part => part

/-- A right side with literals in the place of placeholders. -/
def Side.bound (resolve : Resolver) : Side → Side
  | .single part => .single (part.bound resolve)
  | .list parts => .list (parts.map (·.bound resolve))
  | .range low high => .range (low.bound resolve) (high.bound resolve)

/-- A part that is no call of `ISNULL` over a placeholder. -/
def Direct (part : Part) : Prop := ∀ name default, part ≠ .placeholderOr name default

/-- A right side without a call of `ISNULL` over a placeholder. -/
def DirectSide : Side → Prop
  | .single part => Direct part
  | .list _ | .range _ _ => True

/-! ### Parts -/

theorem grid_bound (part : Part) : (part.bound setting.resolve).grid setting = part.grid setting := by
  cases part <;> rfl

theorem operands_bound (part : Part) :
    (part.bound setting.resolve).operands setting connective = part.operands setting connective := by
  cases part <;> rfl

theorem joined_bound : joined setting connective (left.bound setting.resolve) (right.bound setting.resolve) =
    joined setting connective left right := by
  rw [joined, joined, operands_bound, grid_bound]

/-- `ISNULL` over no placeholder takes its arguments as they are bound. -/
theorem coalesced_bound {arguments : List Part} (h : ∀ name, arguments.head? ≠ some (.placeholder name)) :
    coalesced setting (arguments.map (·.bound setting.resolve)) = (coalesced setting arguments).bound setting.resolve ∧
      Direct (coalesced setting arguments) := by
  match arguments with
  | [] => exact ⟨rfl, nofun⟩
  | [first] =>
    cases first with
    | placeholder name => exact absurd rfl (h name)
    | _ => exact ⟨rfl, nofun⟩
  | first :: default :: others =>
    cases first with
    | placeholder name => exact absurd rfl (h name)
    | field name => exact ⟨congrArg (Part.fieldOr name) (grid_bound default), nofun⟩
    | _ => exact ⟨rfl, nofun⟩

/-! ### Comparisons -/

theorem decideCoalesced?_of_direct {call other : Part} (h : Direct call) :
    decideCoalesced? setting call operator other = none := by
  cases hdecided : decideCoalesced? setting call operator other with
  | none => rfl
  | some b =>
    obtain ⟨name, default, v, literal, hcall, -⟩ := decideCoalesced?_eq_some hdecided
    exact absurd hcall (h name default)

theorem Direct.bound (h : Direct part) : Direct (part.bound setting.resolve) := by
  cases part with
  | placeholder name => exact nofun
  | _ => exact h

theorem relational_of_direct (hleft : Direct left) (hright : Direct right) :
    relational setting left operator right = undecidedRelational setting left operator right := by
  unfold relational
  rw [decideCoalesced?_of_direct hleft, decideCoalesced?_of_direct hright]
  cases setting.shortCircuit <;> rfl

theorem undecidedRelational_bound : undecidedRelational setting (left.bound setting.resolve) operator
    (right.bound setting.resolve) = undecidedRelational setting left operator right := by
  have hright := @grid_bound setting right
  cases left with
  | fieldOr name default => exact congrArg (coalescedCondition setting name default operator) hright
  | _ => cases right <;> rfl

theorem relational_bound (hleft : Direct left) (hright : Direct right) :
    relational setting (left.bound setting.resolve) operator (right.bound setting.resolve) =
      relational setting left operator right := by
  rw [relational_of_direct hleft hright, relational_of_direct hleft.bound hright.bound, undecidedRelational_bound]

theorem items_bound (right : Side) : (right.bound setting.resolve).items setting = right.items setting := by
  cases right with
  | single part => exact congrArg (fun grid => [grid]) (grid_bound part)
  | list parts =>
    rw [Side.bound, Side.items, Side.items, List.map_map]
    exact List.map_congr_left fun part _ => grid_bound part
  | range low high => rw [Side.bound, Side.items, Side.items, grid_bound, grid_bound]

theorem side_grid_bound (right : Side) : (right.bound setting.resolve).grid setting = right.grid setting := by
  have hitems := @items_bound setting right
  cases right with
  | single part => exact grid_bound part
  | list parts => exact congrArg Grid.list hitems
  | range low high => exact congrArg Grid.list hitems

theorem comparison_bound {right : Side} (hleft : Direct left) (hright : DirectSide right) :
    comparison setting (left.bound setting.resolve) operator (right.bound setting.resolve) =
      comparison setting left operator right := by
  have hplain : plainCondition setting (left.bound setting.resolve) operator (right.bound setting.resolve) =
      plainCondition setting left operator right := by
    rw [plainCondition, plainCondition, grid_bound, side_grid_bound]
  cases operator with
  | isIn | notIn => rw [comparison, comparison, grid_bound, items_bound]
  | between | like | notLike => exact hplain
  | eq | ne | gt | ge | lt | le =>
    cases right with
    | single part => exact relational_bound hleft hright
    | list | range => exact hplain

/-! ### Trees -/

mutual

/-- A tree without `ISNULL` over a placeholder is converted part by part as it is with its placeholders bound. -/
theorem part_bound : ∀ {node : Node}, node.coalescedNames = [] →
    Conversion.part setting (node.bound setting.resolve) = (Conversion.part setting node).bound setting.resolve ∧
      Direct (Conversion.part setting node)
  | .logical connective left right, h => by
    obtain ⟨hl, hr⟩ := List.append_eq_nil_iff.mp h
    refine ⟨?_, nofun⟩
    rw [Node.bound, Conversion.part, (part_bound hl).1, (part_bound hr).1, joined_bound]
    rfl
  | .comparison subject operator operand, h => by
    obtain ⟨hl, hr⟩ := List.append_eq_nil_iff.mp h
    obtain ⟨hsubject, hsubject'⟩ := part_bound hl
    obtain ⟨hoperand, hoperand'⟩ := side_bound hr
    refine ⟨?_, nofun⟩
    rw [Node.bound, Conversion.part, hsubject, hoperand, comparison_bound hsubject' hoperand']
    rfl
  | .isNull arguments, h => by
    obtain ⟨hfirst, harguments⟩ := Node.coalescedNames_isNull h
    rw [Node.bound, Conversion.part, parts_bound harguments]
    refine coalesced_bound fun name hname => ?_
    cases arguments with
    | nil => cases hname
    | cons first rest => exact hfirst name (congrArg some (eq_placeholder_of_part (Option.some.inj hname)))
  | .field _, _ | .literal _, _ | .placeholder _, _ => ⟨rfl, nofun⟩

theorem side_bound : ∀ {operand : Operand}, Node.sideCoalescedNames operand = [] →
    side setting (Node.operandBound setting.resolve operand) = (side setting operand).bound setting.resolve ∧
      DirectSide (side setting operand)
  | .single _, h => by
    obtain ⟨hnode, hdirect⟩ := part_bound h
    exact ⟨congrArg Side.single hnode, hdirect⟩
  | .list _, h => ⟨congrArg Side.list (parts_bound h), trivial⟩
  | .range _ _, h => by
    obtain ⟨hl, hh⟩ := List.append_eq_nil_iff.mp h
    exact ⟨by rw [Node.operandBound, side, side, (part_bound hl).1, (part_bound hh).1, Side.bound], trivial⟩

theorem parts_bound : ∀ {nodes : List Node}, Node.listCoalescedNames nodes = [] →
    parts setting (Node.listBound setting.resolve nodes) = (parts setting nodes).map (·.bound setting.resolve)
  | [], _ => rfl
  | _ :: _, h => by
    obtain ⟨hn, hr⟩ := List.append_eq_nil_iff.mp h
    rw [Node.listBound, parts, parts, List.map_cons, (part_bound hn).1, parts_bound hr]

end

end Conversion

open Conversion in
/-- Binding early is binding late. A tree in which no call of `ISNULL` has a placeholder for its first argument is
    converted against a source of values as it is with those values in the place of its placeholders, against any
    source at all. -/
theorem Node.convertWith_bound {node : Node} (h : node.coalescedNames = []) (options : ConvertOptions)
    (resolve other : Resolver) : (node.bound resolve).convertWith options other = node.convertWith options resolve := by
  let setting : Setting := ⟨options.shortCircuit, options.expandIn, resolve⟩
  calc (node.bound resolve).convertWith options other
    -- No placeholder is left to ask a source for.
    _ = grid setting (node.bound resolve) :=
      @grid_node_against setting other _ fun name hname => absurd (placeholders_bound resolve node ▸ hname) (by simp)
    _ = ((part setting node).bound resolve).grid setting :=
      congrArg (Part.grid setting) (@part_bound setting node h).1
    _ = node.convertWith options resolve := grid_bound (part setting node)

/-! ### A tree with placeholders in every place -/

/-- A source that knows a number and a list in a text. -/
def stocked : Resolver := fun name =>
  if name = "Stock.Usual" then some (.int 2) else if name = "Code.List" then some (.string "a, b") else none

/-- `ISNULL(Qty, {Stock.Usual}) < 3 AND (Code IN ({Code.List}) OR {Stock.Usual} > 5 OR Name LIKE {Name.Part})`. -/
def stockTree : Node :=
  .logical .and
    (.compare (.isNull [.field "Qty", .placeholder "Stock.Usual"]) .lt (.literal (.int 3)))
    (.logical .or
      (.logical .or
        (.comparison (.field "Code") .isIn (.list [.placeholder "Code.List"]))
        (.compare (.placeholder "Stock.Usual") .gt (.literal (.int 5))))
      (.compare (.field "Name") .like (.placeholder "Name.Part")))

theorem Node.convertWith_bound_stockTree : stockTree.coalescedNames = [] ∧
    (stockTree.bound stocked).convertWith {} (fun _ => some .null) = stockTree.convertWith {} stocked :=
  ⟨rfl, Node.convertWith_bound rfl {} stocked fun _ => some .null⟩

end GridFilter
