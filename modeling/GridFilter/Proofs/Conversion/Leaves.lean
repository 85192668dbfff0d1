import GridFilter.Proofs.Conversion.Cases
import Mathlib.Data.List.Basic
import Mathlib.Data.List.Flatten

/-! Short-circuiting only leaves conditions out. Read from left to right through all its groups, a converted tree has
    the leaves of the parts that its connectives join, in their order; with short-circuiting some of them are missing,
    but none is new, moved or doubled. -/

namespace GridFilter

/-! ### Leaves -/

namespace Grid

mutual

/-- What is in a grid filter besides groups and truth values, from left to right; the sides of a condition are not
    looked into. -/
def leaves : Grid → List Grid
  | .group _ operands => listLeaves operands
  | .bool _ => []
  | .value v => [.value v]
  | .field name => [.field name]
  | .list items => [.list items]
  | .condition left operator right => [.condition left operator right]

/-- The leaves of each filter of a list. -/
def listLeaves : List Grid → List Grid
  | [] => []
  | operand :: rest => operand.leaves ++ listLeaves rest

end

theorem listLeaves_eq_flatMap (operands : List Grid) : listLeaves operands = operands.flatMap leaves := by
  induction operands with
  | nil => rfl
  | cons operand rest ih => rw [listLeaves, ih, List.flatMap_cons]

theorem leaves_of_bool? {grid : Grid} (h : grid.bool?.isNone = false) : grid.leaves = [] := by
  cases grid with
  | bool b => rfl
  | _ => cases h

end Grid

namespace Node

/-- The parts of a tree that its connectives join, from left to right. -/
def joinedParts : Node → List Node
  | .logical _ left right => left.joinedParts ++ right.joinedParts
  | .comparison subject operator operand => [.comparison subject operator operand]
  | .isNull arguments => [.isNull arguments]
  | .field name => [.field name]
  | .literal value => [.literal value]
  | .placeholder name => [.placeholder name]

mutual

/-- There is no comparison and no connective in the node, at any depth. -/
def isUnconditional : Node → Bool
  | .logical .. | .comparison .. => false
  | .isNull arguments => listIsUnconditional arguments
  | .field _ | .literal _ | .placeholder _ => true

/-- There is none in a list of nodes. -/
def listIsUnconditional : List Node → Bool
  | [] => true
  | node :: rest => node.isUnconditional && listIsUnconditional rest

end

/-- There is no comparison and no connective in a right side. -/
def sideIsUnconditional : Operand → Bool
  | .single node => node.isUnconditional
  | .list nodes => listIsUnconditional nodes
  | .range low high => low.isUnconditional && high.isUnconditional

/-- Neither an operand of a comparison nor an argument of `ISNULL` has a comparison or a connective in it. -/
def hasUnconditionalOperands : Node → Bool
  | .logical _ left right => left.hasUnconditionalOperands && right.hasUnconditionalOperands
  | .comparison subject _ operand => subject.isUnconditional && sideIsUnconditional operand
  | .isNull arguments => listIsUnconditional arguments
  | .field _ | .literal _ | .placeholder _ => true

end Node

namespace Conversion
open Grid

/-! ### Joining -/

/-- A list with some of its items left out; only short-circuiting leaves any out. -/
structure Thinned (shortCircuit : Bool) (kept whole : List Grid) : Prop where
  sublist : kept.Sublist whole
  eq_whole : shortCircuit = false → kept = whole

namespace Thinned
variable {shortCircuit : Bool} {kept others whole more : List Grid}

theorem refl (whole : List Grid) : Thinned shortCircuit whole whole := ⟨.refl _, fun _ => rfl⟩

theorem nil (h : shortCircuit = true) : Thinned shortCircuit [] whole := by
  refine ⟨List.nil_sublist _, fun hfull => ?_⟩
  rw [h] at hfull
  cases hfull

theorem trans (h : Thinned shortCircuit kept others) (h' : Thinned shortCircuit others whole) :
    Thinned shortCircuit kept whole :=
  ⟨h.sublist.trans h'.sublist, fun hfull => (h.eq_whole hfull).trans (h'.eq_whole hfull)⟩

theorem append (h : Thinned shortCircuit kept whole) (h' : Thinned shortCircuit others more) :
    Thinned shortCircuit (kept ++ others) (whole ++ more) :=
  ⟨h.sublist.append h'.sublist, fun hfull => by rw [h.eq_whole hfull, h'.eq_whole hfull]⟩

end Thinned

variable {setting : Setting} {connective : Connective}

theorem leaves_spliced (operand : Grid) : (spliced connective operand).flatMap leaves = operand.leaves := by
  unfold spliced
  split
  · next inner operands =>
    split
    · rw [leaves, listLeaves_eq_flatMap]
    · exact List.append_nil _
  · exact List.append_nil _

/-- Decided operands have no leaves to lose. -/
theorem leaves_undecided (shortCircuit : Bool) (operands : List Grid) :
    (undecided shortCircuit operands).flatMap leaves = operands.flatMap leaves := by
  cases shortCircuit with
  | false => rfl
  | true =>
    induction operands with
    | nil => rfl
    | cons operand rest ih =>
      rw [List.flatMap_cons, ← ih, undecided, undecided, if_pos rfl, if_pos rfl, List.filter_cons]
      cases hbool : operand.bool?.isNone with
      | true => rfl
      | false =>
        rw [leaves_of_bool? hbool]
        rfl

/-- Joined operands keep their leaves, unless one of them decides the whole. -/
theorem thinned_combine (shortCircuit : Bool) (operands : List Grid) :
    Thinned shortCircuit (combine shortCircuit connective operands).leaves (operands.flatMap leaves) := by
  unfold combine
  split
  · next hdecided => exact .nil (Bool.and_eq_true_iff.mp hdecided).1
  · have hkept : ((undecided shortCircuit operands).flatMap (spliced connective)).flatMap leaves =
        operands.flatMap leaves := by
      rw [List.flatMap_assoc, ← leaves_undecided shortCircuit]
      exact congrArg (fun split => List.flatMap split _) (funext leaves_spliced)
    rw [← hkept]
    split
    · next hnil =>
      rw [hnil]
      exact .refl _
    · next operand hone =>
      rw [hone, List.flatMap_singleton]
      exact .refl _
    · rw [leaves, listLeaves_eq_flatMap]
      exact .refl _

/-! ### Connectives -/

variable (setting) in
/-- The leaves of a part, the operands of a chain taken before they are joined. -/
def Part.leaves (part : Part) : List Grid :=
  match part with
  | .chain _ operands => operands.flatMap Grid.leaves
  | _ => (part.grid setting).leaves

theorem thinned_grid (part : Part) :
    Thinned setting.shortCircuit (part.grid setting).leaves (part.leaves setting) := by
  cases part with
  | chain connective operands => exact thinned_combine setting.shortCircuit operands
  | _ => exact .refl _

theorem thinned_operands (part : Part) :
    Thinned setting.shortCircuit ((part.operands setting connective).flatMap Grid.leaves) (part.leaves setting) := by
  have hgrid : Thinned setting.shortCircuit ([part.grid setting].flatMap Grid.leaves) (part.leaves setting) := by
    rw [List.flatMap_singleton]
    exact thinned_grid part
  cases part with
  | chain inner operands =>
    by_cases hinner : inner = connective
    · rw [Part.operands, if_pos hinner]
      exact .refl _
    · rw [Part.operands, if_neg hinner]
      exact hgrid
  | _ => exact hgrid

theorem thinned_joined (left right : Part) : Thinned setting.shortCircuit
    ((joined setting connective left right).leaves setting) (left.leaves setting ++ right.leaves setting) := by
  rw [joined, Part.leaves, List.flatMap_append, List.flatMap_singleton]
  exact (thinned_operands left).append (thinned_grid right)

theorem leaves_coalesced (arguments : List Part) :
    (coalesced setting arguments).leaves setting = ((coalesced setting arguments).grid setting).leaves := by
  unfold coalesced
  split <;> rfl

/-- A converted tree has the leaves of the parts that its connectives join, in the same order. -/
theorem thinned_part : ∀ node : Node, Thinned setting.shortCircuit ((part setting node).leaves setting)
    (node.joinedParts.flatMap fun part => (grid setting part).leaves)
  | .logical connective left right => by
    rw [part, Node.joinedParts, List.flatMap_append]
    exact (thinned_joined _ _).trans ((thinned_part left).append (thinned_part right))
  | .isNull arguments => by
    rw [Node.joinedParts, List.flatMap_singleton, grid, part, leaves_coalesced]
    exact .refl _
  | .comparison .. | .field _ | .literal _ | .placeholder _ => by
    rw [Node.joinedParts, List.flatMap_singleton]
    exact .refl _

/-! ### Comparisons -/

/-- The setting without short-circuiting. -/
def Setting.thorough (setting : Setting) : Setting := { setting with shortCircuit := false }

/-- A part whose operands, if it has any, are joined. -/
def Single (part : Part) : Prop := ∀ connective operands, part ≠ .chain connective operands

theorem grid_thorough {part : Part} (h : Single part) : part.grid setting.thorough = part.grid setting := by
  cases part with
  | chain connective operands => exact absurd rfl (h connective operands)
  | _ => rfl

variable {left right : Part} {operator : Comparison}

theorem leaves_foldCondition_sublist (left : Grid) (operator : Comparison) (right : Grid) :
    (foldCondition setting left operator right).leaves.Sublist
      (foldCondition setting.thorough left operator right).leaves := by
  have hthorough : foldCondition setting.thorough left operator right =
      .condition left (.ofComparison operator) right := rfl
  rcases foldCondition_cases setting left operator right with h | ⟨-, l, r, b, -, -, -, h⟩
  · rw [h, hthorough]
  · rw [h]
    exact List.nil_sublist _

theorem leaves_undecidedRelational_sublist (hleft : Single left) (hright : Single right) :
    (undecidedRelational setting left operator right).leaves.Sublist
      (undecidedRelational setting.thorough left operator right).leaves := by
  unfold undecidedRelational
  split
  · rw [coalescedCondition_eq, coalescedCondition_eq, grid_thorough hright]
  · rw [coalescedCondition_eq, coalescedCondition_eq, grid_thorough hleft]
  · rw [grid_thorough hleft, grid_thorough hright]
    exact leaves_foldCondition_sublist _ _ _

theorem leaves_relational_sublist (hleft : Single left) (hright : Single right) :
    (relational setting left operator right).leaves.Sublist
      (relational setting.thorough left operator right).leaves := by
  have hthorough : relational setting.thorough left operator right =
      undecidedRelational setting.thorough left operator right := rfl
  rcases relational_cases setting left operator right with h | ⟨-, b, -, h⟩
  · rw [h, hthorough]
    exact leaves_undecidedRelational_sublist hleft hright
  · rw [h]
    exact List.nil_sublist _

/-- Of the conditions on the items of a list, some are decided. -/
theorem leaves_eachItem_sublist (left : Grid) (operator : Comparison) (items : List Grid) :
    (eachItem setting left operator connective items).leaves.Sublist
      (eachItem setting.thorough left operator connective items).leaves := by
  cases items with
  | nil => exact .refl _
  | cons item rest =>
    have hwhole := (@thinned_combine connective false
      ((item :: rest).map (foldCondition setting.thorough left operator))).eq_whole rfl
    have hitems : (((item :: rest).map (foldCondition setting left operator)).flatMap leaves).Sublist
        (((item :: rest).map (foldCondition setting.thorough left operator)).flatMap leaves) := by
      rw [List.flatMap_map, List.flatMap_map]
      exact List.Sublist.flatMap_right _ fun one _ => leaves_foldCondition_sublist left operator one
    rw [← hwhole] at hitems
    exact (thinned_combine setting.shortCircuit _).sublist.trans hitems

theorem leaves_membership_sublist (left : Grid) (negated : Bool) (items : List Grid) :
    (membership setting left negated items).leaves.Sublist
      (membership setting.thorough left negated items).leaves := by
  have hexpand : setting.thorough.expandIn = setting.expandIn := rfl
  unfold membership
  rw [hexpand]
  split
  · exact leaves_eachItem_sublist left _ _
  · split
    · exact leaves_eachItem_sublist left _ _
    · exact .refl _

/-- A right side whose parts are joined. -/
def SingleSide : Side → Prop
  | .single part => Single part
  | .list parts => ∀ part ∈ parts, Single part
  | .range low high => Single low ∧ Single high

theorem items_thorough {right : Side} (h : SingleSide right) :
    right.items setting.thorough = right.items setting := by
  cases right with
  | single part => exact congrArg (fun grid => [grid]) (grid_thorough h)
  | list parts => exact List.map_congr_left fun part hpart => grid_thorough (h part hpart)
  | range low high => rw [Side.items, Side.items, grid_thorough h.1, grid_thorough h.2]

theorem side_grid_thorough {right : Side} (h : SingleSide right) :
    right.grid setting.thorough = right.grid setting := by
  have hitems := @items_thorough setting _ h
  cases right with
  | single part => exact grid_thorough h
  | list parts => exact congrArg Grid.list hitems
  | range low high => exact congrArg Grid.list hitems

theorem leaves_comparison_sublist {right : Side} (hleft : Single left) (hright : SingleSide right) :
    (comparison setting left operator right).leaves.Sublist
      (comparison setting.thorough left operator right).leaves := by
  have hplain : (plainCondition setting left operator right).leaves.Sublist
      (plainCondition setting.thorough left operator right).leaves := by
    rw [plainCondition, plainCondition, grid_thorough hleft, side_grid_thorough hright]
  cases operator with
  | isIn | notIn =>
    rw [comparison, comparison, grid_thorough hleft, items_thorough hright]
    exact leaves_membership_sublist _ _ _
  | between | like | notLike => exact hplain
  | eq | ne | gt | ge | lt | le =>
    cases right with
    | single part => exact leaves_relational_sublist hleft hright
    | list | range => exact hplain

/-! ### Trees -/

theorem coalesced_thorough {arguments : List Part} (h : ∀ part ∈ arguments, Single part) :
    coalesced setting.thorough arguments = coalesced setting arguments ∧ Single (coalesced setting arguments) := by
  match arguments with
  | [] => exact ⟨rfl, nofun⟩
  | [first] =>
    have hgrid := @grid_thorough setting _ (h first (by simp))
    cases first with
    | placeholder name => exact ⟨rfl, nofun⟩
    | _ => exact ⟨congrArg Part.other hgrid, nofun⟩
  | first :: default :: others =>
    have hgrid := @grid_thorough setting _ (h first (by simp))
    have hdefault := @grid_thorough setting _ (h default (by simp))
    cases first with
    | field name => exact ⟨congrArg (Part.fieldOr name) hdefault, nofun⟩
    | placeholder name => exact ⟨congrArg (fun grid => Part.placeholderOr name (some grid)) hdefault, nofun⟩
    | _ => exact ⟨congrArg Part.other hgrid, nofun⟩

mutual

/-- A node without a comparison or a connective in it is the same part with short-circuiting and without. -/
theorem part_thorough : ∀ {node : Node}, node.isUnconditional = true →
    part setting.thorough node = part setting node ∧ Single (part setting node)
  | .isNull arguments, h => by
    obtain ⟨harguments, hsingle⟩ := parts_thorough h
    rw [part, part, harguments]
    exact coalesced_thorough hsingle
  | .field _, _ | .literal _, _ | .placeholder _, _ => ⟨rfl, nofun⟩

theorem parts_thorough : ∀ {nodes : List Node}, Node.listIsUnconditional nodes = true →
    parts setting.thorough nodes = parts setting nodes ∧ ∀ part ∈ parts setting nodes, Single part
  | [], _ => ⟨rfl, nofun⟩
  | node :: rest, h => by
    obtain ⟨hn, hr⟩ := Bool.and_eq_true_iff.mp h
    obtain ⟨hnode, hsingle⟩ := part_thorough hn
    obtain ⟨hrest, hsingles⟩ := parts_thorough hr
    exact ⟨by rw [parts, parts, hnode, hrest], List.forall_mem_cons.mpr ⟨hsingle, hsingles⟩⟩

end

theorem side_thorough {operand : Operand} (h : Node.sideIsUnconditional operand = true) :
    side setting.thorough operand = side setting operand ∧ SingleSide (side setting operand) := by
  cases operand with
  | single node =>
    obtain ⟨hnode, hsingle⟩ := part_thorough h
    exact ⟨congrArg Side.single hnode, hsingle⟩
  | list nodes =>
    obtain ⟨hnodes, hsingles⟩ := parts_thorough h
    exact ⟨congrArg Side.list hnodes, hsingles⟩
  | range low high =>
    obtain ⟨hl, hh⟩ := Bool.and_eq_true_iff.mp h
    obtain ⟨hlow, hlow'⟩ := part_thorough hl
    obtain ⟨hhigh, hhigh'⟩ := part_thorough hh
    exact ⟨by rw [side, side, hlow, hhigh], hlow', hhigh'⟩

/-- Each part that a connective joins loses leaves at most. -/
theorem leaves_grid_sublist : ∀ {node : Node}, node.hasUnconditionalOperands = true →
    ∀ joined ∈ node.joinedParts, (grid setting joined).leaves.Sublist (grid setting.thorough joined).leaves
  | .logical _ left right, h, joined, hjoined => by
    obtain ⟨hl, hr⟩ := Bool.and_eq_true_iff.mp h
    rcases List.mem_append.mp hjoined with hjoined | hjoined
    · exact leaves_grid_sublist hl joined hjoined
    · exact leaves_grid_sublist hr joined hjoined
  | .comparison subject operator operand, h, joined, hjoined => by
    obtain rfl := List.mem_singleton.mp hjoined
    obtain ⟨hl, hr⟩ := Bool.and_eq_true_iff.mp h
    obtain ⟨hsubject, hsingle⟩ := @part_thorough setting _ hl
    obtain ⟨hoperand, hsingles⟩ := @side_thorough setting _ hr
    rw [grid, grid, part, part, hsubject, hoperand]
    exact leaves_comparison_sublist hsingle hsingles
  | .isNull arguments, h, joined, hjoined => by
    obtain rfl := List.mem_singleton.mp hjoined
    have hunconditional : (Node.isNull arguments).isUnconditional = true := h
    obtain ⟨hnode, hsingle⟩ := @part_thorough setting _ hunconditional
    rw [grid, grid, hnode, grid_thorough hsingle]
  | .field _, _, _, hjoined | .literal _, _, _, hjoined | .placeholder _, _, _, hjoined => by
    obtain rfl := List.mem_singleton.mp hjoined
    exact .refl _

end Conversion

/-- The leaves of a converted tree, with short-circuiting or without. -/
def Node.convertedLeaves (node : Node) (options : ConvertOptions) (resolve : Resolver) (shortCircuit : Bool) :
    List Grid :=
  (node.convertWith { options with shortCircuit := shortCircuit } resolve).leaves

open Conversion in
/-- Short-circuiting only leaves conditions out. A tree whose operands and arguments hold no comparison and no
    connective is converted without short-circuiting into the leaves of the parts that its connectives join, one after
    the other, and with short-circuiting into some of them in that order. -/
theorem Node.leaves_convertWith {node : Node} (h : node.hasUnconditionalOperands = true) (options : ConvertOptions)
    (resolve : Resolver) :
    node.convertedLeaves options resolve false =
        node.joinedParts.flatMap (fun part => part.convertedLeaves options resolve false) ∧
      (node.convertedLeaves options resolve true).Sublist
        (node.joinedParts.flatMap fun part => part.convertedLeaves options resolve false) := by
  have hleaves (setting : Setting) : Thinned setting.shortCircuit (grid setting node).leaves
      (node.joinedParts.flatMap fun part => (grid setting part).leaves) :=
    (thinned_grid (part setting node)).trans (thinned_part node)
  let short : Setting := ⟨true, options.expandIn, resolve⟩
  refine ⟨(hleaves short.thorough).eq_whole rfl, (hleaves short).sublist.trans ?_⟩
  exact List.Sublist.flatMap_right _ fun part hpart => @leaves_grid_sublist short _ h part hpart

/-- `A = 1 AND (B = 2 OR 1 = 1) AND (2 > 3 OR Code IN ('x', 'y'))`. -/
def mixedTree : Node :=
  .logical .and
    (.logical .and
      (.compare (.field "A") .eq (.literal (.int 1)))
      (.logical .or
        (.compare (.field "B") .eq (.literal (.int 2)))
        (.compare (.literal (.int 1)) .eq (.literal (.int 1)))))
    (.logical .or
      (.compare (.literal (.int 2)) .gt (.literal (.int 3)))
      (.comparison (.field "Code") .isIn (.list [.literal (.string "x"), .literal (.string "y")])))

/-- Of its six leaves three are left: one side of the first `OR` decides it, and one of the second is left out. -/
theorem Node.leaves_convertWith_mixedTree : mixedTree.hasUnconditionalOperands = true ∧
    ((mixedTree.convertedLeaves {} (fun _ => none) false).length = 6 ∧
      (mixedTree.convertedLeaves {} (fun _ => none) true).length = 3) ∧
    mixedTree.convertedLeaves {} (fun _ => none) false =
        mixedTree.joinedParts.flatMap (fun part => part.convertedLeaves {} (fun _ => none) false) ∧
      (mixedTree.convertedLeaves {} (fun _ => none) true).Sublist
        (mixedTree.joinedParts.flatMap fun part => part.convertedLeaves {} (fun _ => none) false) :=
  ⟨rfl, ⟨rfl, by decide +kernel⟩, Node.leaves_convertWith rfl {} fun _ => none⟩

end GridFilter
