import GridFilter.Proofs.Conversion.Cases
import GridFilter.Proofs.Value.Equality

/-! Comparisons with their sides exchanged and their operator inverted. A decision does not depend on which side comes
    first, and a call of `ISNULL` is found on either of them, so that only a condition shows how it was written. -/

namespace GridFilter

theorem Comparison.inverse_inverse (operator : Comparison) : operator.inverse.inverse = operator := by
  cases operator <;> rfl

namespace Conversion

variable (setting : Setting) (operator : Comparison)

/-! ### Exchanged conditions -/

/-- Two filters are the same, or conditions with their sides exchanged, the first of them under this operator. -/
def Exchanged (first second : Grid) : Prop :=
  first = second ∨ ∃ left right, first = .condition left (.ofComparison operator) right ∧
    second = .condition right (.ofComparison operator.inverse) left

variable {operator} in
theorem Exchanged.of_eq {first second : Grid} (h : first = second) : Exchanged operator first second := .inl h

theorem exchanged_condition (left right : Grid) : Exchanged operator (.condition left (.ofComparison operator) right)
    (.condition right (.ofComparison operator.inverse) left) :=
  .inr ⟨left, right, rfl, rfl⟩

theorem exchanged_foldCondition (left right : Grid) : Exchanged operator (foldCondition setting left operator right)
    (foldCondition setting right operator.inverse left) := by
  rcases foldCondition_cases setting left operator right with h | ⟨hs, l, r, b, rfl, rfl, hdecided, h⟩
  · rcases foldCondition_cases setting right operator.inverse left with h' | ⟨hs, r, l, b, rfl, rfl, hdecided, -⟩
    · rw [h, h']
      exact exchanged_condition operator left right
    · -- What decides the one decides the other.
      rw [← Value.decide?_inverse] at hdecided
      simp [foldCondition, Grid.value?, hs, hdecided] at h
  · refine .of_eq ?_
    rw [h]
    rw [Value.decide?_inverse] at hdecided
    simp [foldCondition, Grid.value?, hs, hdecided]

/-! ### Calls of `ISNULL` -/

/-- A comparison is decided by a call of `ISNULL` on one of its sides at most, whichever is looked at first. -/
theorem decideCoalesced?_exchange (left right : Part) :
    (decideCoalesced? setting left operator right <|> decideCoalesced? setting right operator.inverse left) =
      (decideCoalesced? setting right operator.inverse left <|>
        decideCoalesced? setting left operator.inverse.inverse right) := by
  rw [Comparison.inverse_inverse]
  cases hleft : decideCoalesced? setting left operator right with
  | none => cases decideCoalesced? setting right operator.inverse left <;> rfl
  | some b =>
    obtain ⟨name, default, v, literal, rfl, rfl, -, -⟩ := decideCoalesced?_eq_some hleft
    rfl

/-- A call of `ISNULL` over a field that stands on the right alone is brought to the left. -/
theorem undecidedRelational_right {name : String} {default : Grid} {left : Part}
    (h : ∀ name default, left ≠ .fieldOr name default) :
    undecidedRelational setting left operator (.fieldOr name default) =
      undecidedRelational setting (.fieldOr name default) operator.inverse left := by
  cases left with
  | fieldOr known given => exact absurd rfl (h known given)
  | chain | literal | field | placeholder | placeholderOr | other => rfl

/-- No default satisfies a comparison with a field. -/
theorem coalescedCondition_field (name other : String) (default : Grid) :
    coalescedCondition setting name default operator (.field other) =
      .condition (.field name) (.ofComparison operator) (.field other) := by
  have hunmatched : defaultMatches default operator (.field other) = false := by cases default <;> rfl
  rw [coalescedCondition_eq, hunmatched, if_neg Bool.false_ne_true]

theorem exchanged_undecidedRelational (left right : Part) :
    Exchanged operator (undecidedRelational setting left operator right)
      (undecidedRelational setting right operator.inverse left) := by
  by_cases hleft : ∃ name default, left = .fieldOr name default
  · obtain ⟨name, default, rfl⟩ := hleft
    by_cases hright : ∃ other given, right = .fieldOr other given
    · -- Of two such calls each is compared as its field.
      obtain ⟨other, given, rfl⟩ := hright
      simp only [undecidedRelational, Part.grid, coalescedCondition_field]
      exact exchanged_condition operator (.field name) (.field other)
    · refine .of_eq ?_
      rw [undecidedRelational_right _ _ (by simpa using hright), Comparison.inverse_inverse]
  · have hleft : ∀ name default, left ≠ .fieldOr name default := by simpa using hleft
    by_cases hright : ∃ other given, right = .fieldOr other given
    · obtain ⟨other, given, rfl⟩ := hright
      exact .of_eq (undecidedRelational_right setting operator hleft)
    · have hright : ∀ other given, right ≠ .fieldOr other given := by simpa using hright
      rw [undecidedRelational_of_values hleft hright, undecidedRelational_of_values hright hleft]
      exact exchanged_foldCondition setting operator (left.grid setting) (right.grid setting)

/-! ### Comparisons -/

theorem exchanged_relational (left right : Part) : Exchanged operator (relational setting left operator right)
    (relational setting right operator.inverse left) := by
  unfold relational
  rw [decideCoalesced?_exchange]
  -- With a decision both are the same truth value.
  cases setting.shortCircuit with
  | false => exact exchanged_undecidedRelational setting operator left right
  | true =>
    cases decideCoalesced? setting right operator.inverse left <|>
        decideCoalesced? setting left operator.inverse.inverse right with
    | none => exact exchanged_undecidedRelational setting operator left right
    | some b => exact .of_eq rfl

variable {operator} in
theorem grid_compare (hop : operator.isRelational = true) (subject value : Node) :
    grid setting (.compare subject operator value) =
      relational setting (part setting subject) operator (part setting value) := by
  cases operator with
  | eq | ne | gt | ge | lt | le => rfl
  | isIn | notIn | between | like | notLike => cases hop

end Conversion

/-- To exchange the sides of a comparison and invert its operator changes nothing but the spelling. Either both ways of
    writing it are converted alike, whatever the sides are, or each gives a condition, which has the sides and the
    operator of the other one exchanged and inverted. -/
theorem Node.convertWith_exchange {operator : Comparison} (hop : operator.isRelational = true) (subject value : Node)
    (options : ConvertOptions) (resolve : Resolver) :
    (compare subject operator value).convertWith options resolve =
        (compare value operator.inverse subject).convertWith options resolve ∨
      ∃ left right,
        (compare subject operator value).convertWith options resolve =
          .condition left (.ofComparison operator) right ∧
        (compare value operator.inverse subject).convertWith options resolve =
          .condition right (.ofComparison operator.inverse) left := by
  have hinverse : operator.inverse.isRelational = true := Value.isRelational_inverse.trans hop
  unfold convertWith
  rw [Conversion.grid_compare _ hop, Conversion.grid_compare _ hinverse]
  exact Conversion.exchanged_relational _ operator _ _

/-- Two calls of `ISNULL` over fields, the second one with a default that comes from a record. -/
theorem Node.convertWith_exchange_calls :
    let fee : Node := .isNull [.field "Fee", .literal (.int 5)]
    let rate : Node := .isNull [.field "Rate", .placeholder "Plan.Rate"]
    let resolve : Resolver := fun _ => some (.int 7)
    Comparison.lt.isRelational = true ∧
      ((compare fee .lt rate).convertWith {} resolve = (compare rate .gt fee).convertWith {} resolve ∨
        ∃ left right, (compare fee .lt rate).convertWith {} resolve = .condition left .lt right ∧
          (compare rate .gt fee).convertWith {} resolve = .condition right .gt left) :=
  ⟨rfl, Node.convertWith_exchange rfl _ _ _ _⟩

end GridFilter
