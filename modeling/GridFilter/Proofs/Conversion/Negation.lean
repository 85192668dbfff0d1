import GridFilter.Proofs.Conversion.Cases
import GridFilter.Proofs.Value.Opposites

/-! `NOT IN` is `IN` negated. Each item is decided the other way round or not at all, `AND` absorbs the negation of what
    `OR` absorbs, and so the same items are left of a list, in the same order. -/

namespace GridFilter

/-! ### Negation -/

namespace Connective

/-- The other connective. -/
def dual : Connective → Connective
  | .and => .or
  | .or => .and

theorem absorbing_dual (connective : Connective) : connective.dual.absorbing = !connective.absorbing := by
  cases connective <;> rfl

theorem identity_dual (connective : Connective) : connective.dual.identity = !connective.identity := by
  cases connective <;> rfl

end Connective

/-- Equality and inequality exchanged. -/
def GridOperator.opposite : GridOperator → GridOperator
  | .eq => .ne
  | .ne => .eq
  | other => other

namespace Grid

/-- A truth value negated, and a condition with the opposite operator. -/
def negatedPart : Grid → Grid
  | .bool b => .bool !b
  | .condition left operator right => .condition left operator.opposite right
  | other => other

/-- A filter negated: of a group every operand is, and the connective is the other one. -/
def negated : Grid → Grid
  | .group connective operands => .group connective.dual (operands.map negatedPart)
  | other => other.negatedPart

/-- A truth value or a condition. -/
inductive IsLeaf : Grid → Prop where
  | bool (b : Bool) : IsLeaf (.bool b)
  | condition (left : Grid) (operator : GridOperator) (right : Grid) : IsLeaf (.condition left operator right)

/-- A condition that compares a left side with an item by `=`. -/
def AsksFor (left operand : Grid) : Prop := ∃ item, operand = .condition left .eq item

/-- What asks for any of several items: a truth value, one condition, or conditions joined by `OR`. -/
inductive IsMembership (left : Grid) : Grid → Prop where
  | decided (b : Bool) : IsMembership left (.bool b)
  | one {operand : Grid} : AsksFor left operand → IsMembership left operand
  | any {operands : List Grid} : (∀ operand ∈ operands, AsksFor left operand) → IsMembership left (.group .or operands)

variable {operand : Grid}

theorem IsLeaf.negated_eq (h : IsLeaf operand) : operand.negated = operand.negatedPart := by
  cases h <;> rfl

theorem IsLeaf.negatedPart (h : IsLeaf operand) : IsLeaf operand.negatedPart := by
  cases h with
  | bool b => exact .bool !b
  | condition left operator right => exact .condition left operator.opposite right

theorem bool?_negatedPart (operand : Grid) : operand.negatedPart.bool? = operand.bool?.map (!·) := by
  cases operand <;> rfl

end Grid

namespace Conversion
open Grid

/-! ### Joining leaves -/

section
variable {shortCircuit : Bool} {connective : Connective} {operands : List Grid}

/-- Of leaves no operand is spliced. -/
theorem flatMap_spliced (h : ∀ operand ∈ operands, IsLeaf operand) :
    operands.flatMap (spliced connective) = operands := by
  induction operands with
  | nil => rfl
  | cons operand rest ih =>
    obtain ⟨hoperand, hrest⟩ := List.forall_mem_cons.mp h
    have hspliced : spliced connective operand = [operand] := by cases hoperand <;> rfl
    rw [List.flatMap_cons, hspliced, ih hrest]
    rfl

theorem isLeaf_undecided (shortCircuit : Bool) (h : ∀ operand ∈ operands, IsLeaf operand) :
    ∀ operand ∈ undecided shortCircuit operands, IsLeaf operand := by
  intro operand hoperand
  cases shortCircuit with
  | false => exact h operand hoperand
  | true => exact h operand (List.mem_filter.mp hoperand).1

theorem undecided_negatedPart (shortCircuit : Bool) (operands : List Grid) :
    undecided shortCircuit (operands.map negatedPart) = (undecided shortCircuit operands).map negatedPart := by
  have hdecided : ((·.bool?.isNone) ∘ negatedPart) = fun operand : Grid => operand.bool?.isNone := by
    funext operand
    simp [bool?_negatedPart]
  cases shortCircuit with
  | false => rfl
  | true => simp only [undecided, if_true, List.filter_map, hdecided]

theorem any_absorbing_negatedPart (connective : Connective) (operands : List Grid) :
    (operands.map negatedPart).any (·.bool? == some connective.dual.absorbing) =
      operands.any (·.bool? == some connective.absorbing) := by
  rw [List.any_map]
  congr 1
  funext operand
  rw [Function.comp_apply, bool?_negatedPart, Connective.absorbing_dual]
  cases operand.bool? with
  | none => rfl
  | some b => cases b <;> cases connective <;> rfl

/-- Negated leaves are joined by the other connective into the negation of what the leaves are joined into. -/
theorem combine_negatedPart (h : ∀ operand ∈ operands, IsLeaf operand) :
    combine shortCircuit connective.dual (operands.map negatedPart) =
      (combine shortCircuit connective operands).negated := by
  have hnegated : ∀ operand ∈ operands.map negatedPart, IsLeaf operand := by
    intro operand hoperand
    obtain ⟨before, hbefore, rfl⟩ := List.mem_map.mp hoperand
    exact (h before hbefore).negatedPart
  have hleft := isLeaf_undecided shortCircuit h
  unfold combine
  rw [any_absorbing_negatedPart]
  split
  · rw [Connective.absorbing_dual]
    rfl
  · rw [flatMap_spliced (isLeaf_undecided _ hnegated), flatMap_spliced hleft, undecided_negatedPart]
    -- What is left are no operands, a single one, or a group of them.
    rcases hundecided : undecided shortCircuit operands with - | ⟨first, - | ⟨second, rest⟩⟩
    · rw [List.map_nil, Connective.identity_dual]
      rfl
    · exact (hleft first (by simp [hundecided])).negated_eq.symm
    · rfl

/-- Leaves that are conditions unless they are decided are joined into what asks for any of their items. -/
theorem isMembership_combine {left : Grid} (h : ∀ operand ∈ operands, IsLeaf operand)
    (hasks : ∀ operand ∈ undecided shortCircuit operands, AsksFor left operand) :
    IsMembership left (combine shortCircuit .or operands) := by
  unfold combine
  split
  · exact .decided true
  · rw [flatMap_spliced (isLeaf_undecided _ h)]
    rcases hundecided : undecided shortCircuit operands with - | ⟨first, - | ⟨second, rest⟩⟩
    · exact .decided false
    · exact .one (hasks first (by simp [hundecided]))
    · exact .any (hundecided ▸ hasks)

end

/-! ### Items of a list -/

variable (setting : Setting)

theorem isLeaf_foldCondition (left : Grid) (operator : Comparison) (items : List Grid) :
    ∀ operand ∈ items.map (foldCondition setting left operator), IsLeaf operand := by
  intro operand hoperand
  obtain ⟨item, -, rfl⟩ := List.mem_map.mp hoperand
  rcases foldCondition_cases setting left operator item with h | ⟨-, -, -, b, -, -, -, h⟩
  · exact h ▸ .condition left _ item
  · exact h ▸ .bool b

theorem asksFor_foldCondition (left : Grid) (items : List Grid) :
    ∀ operand ∈ undecided setting.shortCircuit (items.map (foldCondition setting left .eq)), AsksFor left operand := by
  intro operand hoperand
  have hfolded : ∃ item, operand = foldCondition setting left .eq item ∧
      (setting.shortCircuit = true → operand.bool? = none) := by
    unfold undecided at hoperand
    split at hoperand
    · obtain ⟨hmem, hnone⟩ := List.mem_filter.mp hoperand
      obtain ⟨item, -, rfl⟩ := List.mem_map.mp hmem
      exact ⟨item, rfl, fun _ => by simpa using hnone⟩
    · next hs =>
      obtain ⟨item, -, rfl⟩ := List.mem_map.mp hoperand
      exact ⟨item, rfl, fun h => absurd h hs⟩
  obtain ⟨item, rfl, hnone⟩ := hfolded
  rcases foldCondition_cases setting left .eq item with h | ⟨hs, -, -, b, -, -, -, h⟩
  · exact ⟨item, h⟩
  · rw [h] at hnone
    cases hnone hs

/-- The comparison of an item by `!=` is the negation of its comparison by `=`. -/
theorem foldCondition_ne (left item : Grid) :
    foldCondition setting left .ne item = (foldCondition setting left .eq item).negatedPart := by
  unfold foldCondition
  rcases left.value? with - | l
  · cases setting.shortCircuit <;> rfl
  rcases item.value? with - | v
  · cases setting.shortCircuit <;> rfl
  dsimp only
  have hne : l.decide? .ne v = (l.decide? .eq v).map (!·) := Value.decide?_opposite l v .eq
  rw [hne]
  cases setting.shortCircuit with
  | false => rfl
  | true => cases l.decide? .eq v <;> rfl

theorem eachItem_ne (left : Grid) (items : List Grid) :
    eachItem setting left .ne .and items = (eachItem setting left .eq .or items).negated := by
  cases items with
  | nil => rfl
  | cons first rest =>
    have hitems : (first :: rest).map (foldCondition setting left .ne) =
        ((first :: rest).map (foldCondition setting left .eq)).map negatedPart := by
      rw [List.map_map]
      exact List.map_congr_left fun item _ => foldCondition_ne setting left item
    rw [eachItem, hitems]
    · exact @combine_negatedPart _ .or _ (isLeaf_foldCondition setting left .eq (first :: rest))
    · simp

theorem isMembership_eachItem (left : Grid) (items : List Grid) :
    IsMembership left (eachItem setting left .eq .or items) := by
  cases items with
  | nil => exact .one ⟨.list [], rfl⟩
  | cons first rest =>
    exact isMembership_combine (isLeaf_foldCondition setting left .eq (first :: rest))
      (asksFor_foldCondition setting left (first :: rest))

end Conversion

/-- Where lists are expanded, `IN` is converted into what asks for any of the items, and `NOT IN` into its negation: the
    same items in the same order, compared by `!=` in place of `=` and joined by `AND` in place of `OR`, or the other
    truth value. -/
theorem Node.convertWith_notIn {options : ConvertOptions} (hexpand : options.expandIn = true) (subject : Node)
    (operand : Operand) (resolve : Resolver) :
    Grid.IsMembership (subject.convertWith options resolve)
        ((comparison subject .isIn operand).convertWith options resolve) ∧
      (comparison subject .notIn operand).convertWith options resolve =
        ((comparison subject .isIn operand).convertWith options resolve).negated := by
  obtain ⟨shortCircuit, expandIn, missingAttribute⟩ := options
  obtain rfl : expandIn = true := hexpand
  exact ⟨Conversion.isMembership_eachItem _ _ _, Conversion.eachItem_ne _ _ _⟩

/-- An item that is decided, a field, and a list to take apart; 2 is neither 4 nor 3. -/
theorem Node.convertWith_notIn_mixed :
    let items : Operand := .list [.literal (.int 4), .field "Qty", .placeholder "Stock.Usual"]
    let resolve : Resolver := fun _ => some (.array [.int 3, .string "x"])
    let options : ConvertOptions := {}
    options.expandIn = true ∧
      Grid.IsMembership (.value (.int 2))
          (.group .or [.condition (.value (.int 2)) .eq (.field "Qty"),
            .condition (.value (.int 2)) .eq (.value (.string "x"))]) ∧
        (comparison (.literal (.int 2)) .notIn items).convertWith options resolve =
          .group .and [.condition (.value (.int 2)) .ne (.field "Qty"),
            .condition (.value (.int 2)) .ne (.value (.string "x"))] := by
  intro items resolve options
  have hconverted : (comparison (.literal (.int 2)) .isIn items).convertWith options resolve =
      .group .or [.condition (.value (.int 2)) .eq (.field "Qty"),
        .condition (.value (.int 2)) .eq (.value (.string "x"))] := by
    rfl
  have h := Node.convertWith_notIn (show options.expandIn = true from rfl) (.literal (.int 2)) items resolve
  rw [hconverted] at h
  exact ⟨rfl, h⟩

end GridFilter
