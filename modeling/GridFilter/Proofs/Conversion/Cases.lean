import GridFilter.Conversion

/-! What the steps of a conversion can give. A comparison is a condition, or the truth value that a decision gave it,
    the latter with short-circuiting only. -/

namespace GridFilter.Conversion

theorem value?_eq_some {grid : Grid} {v : Value} (h : grid.value? = some v) : grid = .value v := by
  cases grid <;> simp_all [Grid.value?]

theorem bool?_eq_some {grid : Grid} {b : Bool} (h : grid.bool? = some b) : grid = .bool b := by
  cases grid <;> simp_all [Grid.bool?]

variable (setting : Setting)

/-- A condition stays as it is, or has two values for sides and is decided by them. -/
theorem foldCondition_cases (left : Grid) (operator : Comparison) (right : Grid) :
    foldCondition setting left operator right = .condition left (.ofComparison operator) right ∨
      setting.shortCircuit = true ∧ ∃ l r b, left = .value l ∧ right = .value r ∧ l.decide? operator r = some b ∧
        foldCondition setting left operator right = .bool b := by
  unfold foldCondition
  cases hs : setting.shortCircuit with
  | false => exact Or.inl rfl
  | true =>
    cases hl : left.value? with
    | none => exact Or.inl rfl
    | some l =>
      cases hr : right.value? with
      | none => exact Or.inl rfl
      | some r =>
        cases hd : l.decide? operator r with
        | none => exact Or.inl (by simp [hd])
        | some b => exact Or.inr ⟨rfl, l, r, b, value?_eq_some hl, value?_eq_some hr, hd, by simp [hd]⟩

/-- `ISNULL` over a field compares the field, and asks for null too where the default satisfies the comparison. -/
theorem coalescedCondition_eq (name : String) (default : Grid) (operator : Comparison) (right : Grid) :
    coalescedCondition setting name default operator right =
      if defaultMatches default operator right then
        .group .or
          [.condition (.field name) (.ofComparison operator) right, .condition (.field name) .eq (.value .null)]
      else .condition (.field name) (.ofComparison operator) right := by
  unfold coalescedCondition
  cases setting.shortCircuit <;> rfl

/-- Without a call of `ISNULL` over a field on either side, a comparison that nothing decides beforehand is the
    condition of its sides. -/
theorem undecidedRelational_of_values {setting : Setting} {left right : Part} {operator : Comparison}
    (hleft : ∀ name default, left ≠ .fieldOr name default) (hright : ∀ name default, right ≠ .fieldOr name default) :
    undecidedRelational setting left operator right =
      foldCondition setting (left.grid setting) operator (right.grid setting) := by
  unfold undecidedRelational
  split
  · next name default => exact absurd rfl (hleft name default)
  · next name default _ => exact absurd rfl (hright name default)
  · rfl

/-- A relational comparison is converted as an undecided one, or a call of `ISNULL` on one of its sides decides it. -/
theorem relational_cases (left : Part) (operator : Comparison) (right : Part) :
    relational setting left operator right = undecidedRelational setting left operator right ∨
      setting.shortCircuit = true ∧ ∃ b, (decideCoalesced? setting left operator right = some b ∨
        decideCoalesced? setting right operator.inverse left = some b) ∧
        relational setting left operator right = .bool b := by
  unfold relational
  cases hs : setting.shortCircuit with
  | false => exact Or.inl rfl
  | true =>
    cases hl : decideCoalesced? setting left operator right with
    | some b => exact Or.inr ⟨rfl, b, Or.inl rfl, rfl⟩
    | none =>
      cases hr : decideCoalesced? setting right operator.inverse left with
      | some b => exact Or.inr ⟨rfl, b, Or.inr rfl, rfl⟩
      | none => exact Or.inl rfl

/-- Only `ISNULL` over a placeholder with a known value is decided, and only against a literal. -/
theorem decideCoalesced?_eq_some {setting : Setting} {call other : Part} {operator : Comparison} {b : Bool}
    (h : decideCoalesced? setting call operator other = some b) :
    ∃ name default v literal, call = .placeholderOr name default ∧ other = .literal literal ∧
      coalescedValue? setting name default = some v ∧ v.decideStrictly? operator literal = some b := by
  unfold decideCoalesced? at h
  split at h
  · next name default literal =>
    obtain ⟨v, hv, hdecided⟩ := Option.bind_eq_some_iff.mp h
    exact ⟨name, default, v, literal, rfl, rfl, hv, hdecided⟩
  · simp at h

/-- A call of `ISNULL` is neither a field by itself nor a placeholder by itself. -/
theorem coalesced_ne (arguments : List Part) (name : String) :
    coalesced setting arguments ≠ .field name ∧ coalesced setting arguments ≠ .placeholder name := by
  unfold coalesced
  split <;> exact ⟨nofun, nofun⟩

/-- Only a placeholder by itself is converted into one. -/
theorem eq_placeholder_of_part {setting : Setting} {node : Node} {name : String}
    (h : part setting node = .placeholder name) : node = .placeholder name := by
  cases node with
  | placeholder known =>
    cases h
    rfl
  | isNull arguments =>
    rw [part] at h
    exact absurd h (coalesced_ne setting (parts setting arguments) name).2
  | logical | comparison | field | literal => cases h

/-- Only a field by itself is converted into one. -/
theorem eq_field_of_part {setting : Setting} {node : Node} {name : String} (h : part setting node = .field name) :
    node = .field name := by
  cases node with
  | field known =>
    cases h
    rfl
  | isNull arguments =>
    rw [part] at h
    exact absurd h (coalesced_ne setting (parts setting arguments) name).1
  | logical | comparison | literal | placeholder => cases h

end GridFilter.Conversion
