import GridFilter.Proofs.Conversion.Meaning

/-! Which rows of a grid a filter keeps, and which of them the comparison of `ISNULL` over a field does. A row that
    has a value in the column is kept as the comparison says. A row that is null there is kept where the default
    satisfies the comparison, and also where null itself satisfies it. -/

namespace GridFilter

namespace Grid

mutual

/-- A grid filter with a value in the place of a column. -/
def withColumn (column : String) (value : Value) : Grid → Grid
  | .bool b => .bool b
  | .value v => .value v
  | .field name => if name = column then .value value else .field name
  | .list items => .list (listWithColumn column value items)
  | .condition left operator right =>
    .condition (left.withColumn column value) operator (right.withColumn column value)
  | .group connective operands => .group connective (listWithColumn column value operands)

/-- Each filter of a list with a value in the place of a column. -/
def listWithColumn (column : String) (value : Value) : List Grid → List Grid
  | [] => []
  | grid :: rest => grid.withColumn column value :: listWithColumn column value rest

end

/-- The filter keeps a row with this value in the column: a condition between two values holds where these are known
    to satisfy it, and a group as its connective says. -/
def keepsRow (filter : Grid) (column : String) (value : Value) : Bool := (filter.withColumn column value).truth default

end Grid

namespace Value

/-- A value, or the default in the place of null. -/
def coalesce (value default : Value) : Value := if value.isNull then default else value

theorem isNull_iff {v : Value} : v.isNull = true ↔ v = .null := by cases v <;> simp [isNull]

theorem decideStrictly?_eq_null (v : Value) : v.decideStrictly? .eq .null = some v.isNull := by
  have hreading : Value.null.reading? = some .null := rfl
  unfold decideStrictly? decide?
  rw [hreading]
  cases hv : v.reading? <;> cases v <;> rfl

end Value

namespace Conversion

variable (setting : Setting) {operator : Comparison}

/-- A condition on the column alone keeps a row whose value is known to satisfy it. -/
theorem keepsRow_condition (hop : operator.isRelational = true) (column : String) (c v : Value) :
    (Grid.condition (.field column) (.ofComparison operator) (.value v)).keepsRow column c =
      (c.decideStrictly? operator v == some true) := by
  simp only [Grid.keepsRow, Grid.withColumn, if_true, Grid.truth]
  cases operator with
  | eq | ne | gt | ge | lt | le => rfl
  | isIn | notIn | between | like | notLike => cases hop

/-- Of the rows that are null in the column, those are kept that the default or null itself makes satisfy it. -/
theorem keepsRow_coalescedCondition (hop : operator.isRelational = true) (column : String) (d v c : Value) :
    (coalescedCondition setting column (.value d) operator (.value v)).keepsRow column c = true ↔
      c.decideStrictly? operator v = some true ∨ d.decideStrictly? operator v = some true ∧ c.isNull = true := by
  have hcondition := keepsRow_condition hop column c v
  have hnull : (Grid.condition (.field column) .eq (.value .null)).keepsRow column c = c.isNull := by
    have h : (Grid.condition (.field column) .eq (.value .null)).keepsRow column c =
        (c.decideStrictly? .eq .null == some true) := @keepsRow_condition .eq rfl column c .null
    simpa [Value.decideStrictly?_eq_null] using h
  have hmatches : defaultMatches (.value d) operator (.value v) = (d.decideStrictly? operator v == some true) := rfl
  rw [coalescedCondition_eq, hmatches]
  split
  · next hd =>
    have hgroup (first second : Grid) : (Grid.group .or [first, second]).keepsRow column c =
        (first.keepsRow column c || second.keepsRow column c) := by
      simp [Grid.keepsRow, Grid.withColumn, Grid.listWithColumn]
      rfl
    rw [hgroup, hcondition, hnull]
    simp_all
  · next hd =>
    rw [hcondition]
    simp_all

end Conversion

/-- The comparison of `ISNULL` over a field, with a literal for its default, and a literal. -/
def Node.compareCoalesced (column : String) (default : Value) (operator : Comparison) (value : Value) : Node :=
  .compare (.isNull [.field column, .literal default]) operator (.literal value)

open Conversion in
/-- The comparison of `ISNULL` over a field keeps a row exactly where the value of the row, with the default in the place
    of null, satisfies it; but for the rows that are null in the column where null itself satisfies the comparison and
    the default does not. -/
theorem Node.keepsRow_compareCoalesced_iff (column : String) (d v c : Value) {operator : Comparison}
    (hop : operator.isRelational = true) (options : ConvertOptions) (resolve : Resolver) :
    ((((compareCoalesced column d operator v).convertWith options resolve).keepsRow column c = true ↔
        (c.coalesce d).decideStrictly? operator v = some true) ↔
      (c.isNull = true → Value.null.decideStrictly? operator v = some true →
        d.decideStrictly? operator v = some true)) := by
  have hconverted : (compareCoalesced column d operator v).convertWith options resolve =
      coalescedCondition ⟨options.shortCircuit, options.expandIn, resolve⟩ column (.value d) operator (.value v) := by
    obtain ⟨shortCircuit, expandIn, missingAttribute⟩ := options
    cases operator with
    | eq | ne | gt | ge | lt | le => cases shortCircuit <;> rfl
    | isIn | notIn | between | like | notLike => cases hop
  rw [hconverted, keepsRow_coalescedCondition _ hop]
  cases hc : c.isNull with
  | false => simp [Value.coalesce, hc]
  | true =>
    rw [Value.isNull_iff.mp hc]
    simp only [Value.coalesce, Value.isNull, if_true, and_true, true_implies]
    exact ⟨fun h hnull => h.mp (.inl hnull), fun h => ⟨fun hkept => hkept.elim h id, .inr⟩⟩

theorem Node.keepsRow_compareCoalesced_seven : Comparison.ne.isRelational = true ∧
    (((compareCoalesced "Qty" (.int 5) .ne (.int 7)).convertWith {} fun _ => none).keepsRow "Qty" .null = true ↔
      (Value.null.coalesce (.int 5)).decideStrictly? .ne (.int 7) = some true) := by
  refine ⟨rfl, (Node.keepsRow_compareCoalesced_iff "Qty" (.int 5) (.int 7) .null rfl {} fun _ => none).mpr ?_⟩
  intro _ _
  rfl

/-- A null stands for 5 here, and 5 is neither null nor unequal to 5; the row is kept all the same. -/
theorem Node.keepsRow_compareCoalesced_five :
    (((compareCoalesced "Qty" (.int 5) .eq .null).convertWith {} fun _ => none).keepsRow "Qty" .null = true ∧
      (Value.null.coalesce (.int 5)).decideStrictly? .eq .null = some false) ∧
    ((compareCoalesced "Qty" (.int 5) .ne (.int 5)).convertWith {} fun _ => none).keepsRow "Qty" .null = true ∧
      (Value.null.coalesce (.int 5)).decideStrictly? .ne (.int 5) = some false := by
  refine ⟨⟨?_, ?_⟩, ?_, ?_⟩ <;> rfl

end GridFilter
