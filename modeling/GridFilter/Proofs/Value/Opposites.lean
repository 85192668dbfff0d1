import GridFilter.Proofs.Value.Equality
import GridFilter.Proofs.Value.Exact

/-! Comparisons and their opposites. The numbers that an ordering looks at are finite, so that of two opposite orderings one
    holds and the other does not. Opposite comparisons of the same sides are decided together, each the other way round. -/

namespace GridFilter

/-! ### Orderings -/

namespace Binary64

variable {x y : Binary64}

theorem exists_line (h : x.isFinite = true) : ∃ place, x.line = some place := by
  cases x with
  | finite negative place => exact ⟨_, rfl⟩
  | nan | infinity _ => cases h

/-- Of two finite numbers, one that is not below the other is at least as large. -/
theorem atMost_eq_not_less (hx : x.isFinite = true) (hy : y.isFinite = true) : y.atMost x = !x.less y := by
  obtain ⟨p, hp⟩ := exists_line hx
  obtain ⟨q, hq⟩ := exists_line hy
  simp only [atMost, less, related, hp, hq]
  rw [← decide_not, decide_eq_decide, Int.not_lt]

end Binary64

namespace Comparison

/-- The comparison that holds exactly where this one does not. `BETWEEN` has none, and stands for itself. -/
def opposite : Comparison → Comparison
  | .eq => .ne
  | .ne => .eq
  | .gt => .le
  | .ge => .lt
  | .lt => .ge
  | .le => .gt
  | .isIn => .notIn
  | .notIn => .isIn
  | .between => .between
  | .like => .notLike
  | .notLike => .like

theorem orders?_opposite {x y : Binary64} (hx : x.isFinite = true) (hy : y.isFinite = true) (comparison : Comparison) :
    comparison.opposite.orders? x y = (comparison.orders? x y).map (!·) := by
  have hle := Binary64.atMost_eq_not_less hy hx
  have hge := Binary64.atMost_eq_not_less hx hy
  cases comparison <;> simp [opposite, orders?, hle, hge]

end Comparison

namespace Value

variable {value left right : Value} {comparison : Comparison} {x : Binary64}

/-! ### Readings -/

/-- Only a finite number is the numeric reading of a value. -/
theorem isFinite_of_number? (h : value.number? = some x) : x.isFinite = true := by
  cases value with
  | int n =>
    obtain rfl := Option.some.inj h
    exact (ofWhole_finite n).1
  | float y =>
    rw [number?, Option.ite_none_right_eq_some] at h
    obtain ⟨hfinite, ⟨⟩⟩ := h
    exact hfinite
  | bool b =>
    obtain rfl := Option.some.inj h
    exact (Binary64.ofInt_finite (by cases b <;> decide)).1
  | string s => exact (Option.filter_eq_some_iff.mp h).2
  | null | array _ | object _ => cases h

theorem isSome_number? : value.number?.isSome ↔ ∃ x, value.reading? = some (.number x) := by
  simp only [reading?_eq_number, Option.isSome_iff_exists]

/-! ### Decisions -/

theorem isSome_decide? : (left.decide? comparison right).isSome ↔
    comparison.isEquality ∧ left.reading?.isSome ∧ right.reading?.isSome ∨
      comparison.isRelational ∧ left.number?.isSome ∧ right.number?.isSome := by
  rw [isSome_number?, isSome_number?, decide?]
  rcases left.reading? with - | - | x <;> rcases right.reading? with - | - | y <;> cases comparison <;>
    simp [Comparison.isEquality, Comparison.isRelational, Comparison.orders?]

theorem isSome_decideStrictly? : (left.decideStrictly? comparison right).isSome ↔
    comparison.isEquality ∨ comparison.isRelational ∧ left.number?.isSome ∧ right.number?.isSome := by
  have hdecided := @isSome_decide? left right comparison
  unfold decideStrictly?
  cases hd : left.decide? comparison right with
  | some b =>
    rw [hd] at hdecided
    exact ⟨fun _ => (hdecided.mp rfl).imp_left And.left, fun _ => rfl⟩
  | none =>
    rw [hd] at hdecided
    have hnumbers : ¬(comparison.isRelational ∧ left.number?.isSome ∧ right.number?.isSome) :=
      fun h => Bool.false_ne_true (hdecided.mpr (.inr h))
    rw [or_iff_left hnumbers]
    cases comparison <;> simp [Comparison.isEquality]

theorem decide?_opposite (left right : Value) (comparison : Comparison) :
    left.decide? comparison.opposite right = (left.decide? comparison right).map (!·) := by
  unfold decide?
  rcases hleft : left.reading? with - | - | x
  · rfl
  · rcases right.reading? with - | b
    · rfl
    · cases comparison <;> simp [Comparison.opposite]
  · rcases hright : right.reading? with - | - | y
    · rfl
    · cases comparison <;> simp [Comparison.opposite]
    · -- An undefined number would be neither below another one nor at least as large, but no value reads as it.
      have hx := isFinite_of_number? (reading?_eq_number.mp hleft)
      have hy := isFinite_of_number? (reading?_eq_number.mp hright)
      cases comparison with
      | eq | ne => simp [Comparison.opposite]
      | gt | ge | lt | le | isIn | notIn | between | like | notLike => exact Comparison.orders?_opposite hx hy _

theorem decideStrictly?_opposite (left right : Value) (comparison : Comparison) :
    left.decideStrictly? comparison.opposite right = (left.decideStrictly? comparison right).map (!·) := by
  unfold decideStrictly?
  rw [decide?_opposite]
  cases left.decide? comparison right with
  | some b => rfl
  | none => cases comparison <;> simp [Comparison.opposite]

/-- A comparison and its inverse with the sides exchanged are decided alike, and its opposite is decided where it is itself,
    the other way round. Orderings are decided where both sides have a numeric reading, and equality where each of them
    has one or is null; a strict decision of equality is never left open. -/
theorem decide?_inverse_opposite (left right : Value) (comparison : Comparison) :
    (left.decide? comparison right = right.decide? comparison.inverse left ∧
        left.decideStrictly? comparison right = right.decideStrictly? comparison.inverse left) ∧
      (left.decide? comparison.opposite right = (left.decide? comparison right).map (!·) ∧
        left.decideStrictly? comparison.opposite right = (left.decideStrictly? comparison right).map (!·)) ∧
      ((left.decide? comparison right).isSome ↔
        comparison.isEquality ∧ left.reading?.isSome ∧ right.reading?.isSome ∨
          comparison.isRelational ∧ left.number?.isSome ∧ right.number?.isSome) ∧
      ((left.decideStrictly? comparison right).isSome ↔
        comparison.isEquality ∨ comparison.isRelational ∧ left.number?.isSome ∧ right.number?.isSome) := by
  refine ⟨⟨?_, ?_⟩, ⟨?_, ?_⟩, isSome_decide?, isSome_decideStrictly?⟩
  · exact decide?_inverse left comparison right
  · exact decideStrictly?_inverse left comparison right
  · exact decide?_opposite left right comparison
  · exact decideStrictly?_opposite left right comparison

-- A list with an undefined number in it is not the same as itself, which only a strict decision asks.
example : (Value.array [.float .nan]).decide? .eq (.array [.float .nan]) = none ∧
    (Value.array [.float .nan]).decideStrictly? .eq (.array [.float .nan]) = some false ∧
    (Value.array [.float .nan]).decideStrictly? .ne (.array [.float .nan]) = some true := by decide

end Value

end GridFilter
