import GridFilter.Grid.Basic
import Mathlib.Data.List.Forall2

/-! What the JSON of a filter tells. Conditions and groups are both written as lists, and so are the sides of a condition;
    still the JSON tells the groups and conditions of a filter apart and gives each of them back, with the sides as far as
    they show in JSON. -/

namespace GridFilter.Grid

variable {left right left' right' f g : Grid} {operator operator' : GridOperator} {connective connective' : Connective}

/-! ### Filters and what they have in common -/

/-- A field or a value. -/
inductive IsTerm : Grid → Prop where
  | value (v : Value) : IsTerm (.value v)
  | field (name : String) : IsTerm (.field name)

/-- A side of a condition: a field, a value, or a list of these. -/
inductive IsSide : Grid → Prop where
  | term {side : Grid} : IsTerm side → IsSide side
  | list {items : List Grid} : (∀ item ∈ items, IsTerm item) → IsSide (.list items)

/-- Groups of at least two operands, down to conditions. -/
inductive IsFilter : Grid → Prop where
  | condition {left right : Grid} (operator : GridOperator) : IsSide left → IsSide right →
      IsFilter (.condition left operator right)
  | group (connective : Connective) {operands : List Grid} : 2 ≤ operands.length →
      (∀ operand ∈ operands, IsFilter operand) → IsFilter (.group connective operands)

/-- The same tree of groups and conditions, with the same connectives and operators in the same places, over sides that
    are written alike. -/
inductive SameTree : Grid → Grid → Prop where
  | condition {left right left' right' : Grid} (operator : GridOperator) : left.toJson = left'.toJson →
      right.toJson = right'.toJson → SameTree (.condition left operator right) (.condition left' operator right')
  | group (connective : Connective) {operands operands' : List Grid} : List.Forall₂ SameTree operands operands' →
      SameTree (.group connective operands) (.group connective operands')

/-! ### Separators -/

section
variable {separator separator' : Json} {items items' : List Json}

theorem separated_injective (h : separated separator items = separated separator items') : items = items' := by
  induction items using separated.induct generalizing items' with
  | case1 =>
    rcases items' with - | ⟨first, - | ⟨second, rest⟩⟩
    · rfl
    · cases h
    · cases h
  | case2 item =>
    rcases items' with - | ⟨first, - | ⟨second, rest⟩⟩
    · cases h
    · exact h
    · cases h
  | case3 item rest hrest ih =>
    obtain ⟨next, more, rfl⟩ := List.exists_cons_of_ne_nil hrest
    rcases items' with - | ⟨first, - | ⟨second, rest⟩⟩
    · cases h
    · cases h
    · obtain ⟨hfirst, hmore⟩ := List.cons.inj h
      rw [hfirst, ih (List.cons.inj hmore).2]

/-- The separator stands behind the first of several items. -/
theorem separated_second (h : 2 ≤ items.length) : (separated separator items)[1]? = some separator := by
  rcases items with - | ⟨first, - | ⟨second, rest⟩⟩
  · cases h
  · exact absurd h (by simp)
  · rfl

theorem separated_inj (hitems : 2 ≤ items.length) (hitems' : 2 ≤ items'.length)
    (h : separated separator items = separated separator' items') : separator = separator' ∧ items = items' := by
  have hseparator : separator = separator' := by
    have hsecond : (separated separator items)[1]? = some separator := separated_second hitems
    rw [h, separated_second hitems'] at hsecond
    exact (Option.some.inj hsecond).symm
  exact ⟨hseparator, separated_injective (hseparator ▸ h)⟩

end

/-! ### Labels -/

theorem label_inj {a b : GridOperator} (h : a.label = b.label) : a = b := by
  revert h
  cases a <;> cases b <;> decide

theorem connective_label_inj {a b : Connective} (h : a.label = b.label) : a = b := by
  revert h
  cases a <;> cases b <;> decide

/-- No operator is written like a connective. -/
theorem label_ne_connective (operator : GridOperator) (connective : Connective) :
    operator.label ≠ connective.label := by
  cases operator <;> cases connective <;> decide

/-! ### Lists of operands -/

theorem length_listToJson (operands : List Grid) : (listToJson operands).length = operands.length := by
  induction operands with
  | nil => rfl
  | cons operand rest ih => rw [listToJson, List.length_cons, List.length_cons, ih]

/-- A condition and a group are written differently: they have an operator and a connective in the same place. -/
theorem toJson_condition_ne_group {operands : List Grid} (h : 2 ≤ operands.length) :
    (Grid.condition left operator right).toJson ≠ (Grid.group connective operands).toJson := by
  intro heq
  have hsecond := congrArg (·[1]?) (Json.array.inj heq)
  rw [← length_listToJson] at h
  simp only [separated_second h, List.getElem?_cons_succ, List.getElem?_cons_zero] at hsecond
  exact label_ne_connective operator connective (Json.string.inj (Option.some.inj hsecond))

theorem sameTree_of_listToJson {operands operands' : List Grid} (hfilters : ∀ operand ∈ operands', IsFilter operand)
    (hsame : ∀ operand ∈ operands, ∀ g, IsFilter g → operand.toJson = g.toJson → SameTree operand g)
    (h : listToJson operands = listToJson operands') : List.Forall₂ SameTree operands operands' := by
  induction operands generalizing operands' with
  | nil =>
    cases operands' with
    | nil => exact .nil
    | cons first rest => cases h
  | cons operand rest ih =>
    cases operands' with
    | nil => cases h
    | cons first others =>
      obtain ⟨hfirst, hrest⟩ := List.cons.inj h
      obtain ⟨hsame, hsames⟩ := List.forall_mem_cons.mp hsame
      obtain ⟨hfilter, hfilters⟩ := List.forall_mem_cons.mp hfilters
      exact .cons (hsame first hfilter hfirst) (ih hfilters hsames hrest)

/-! ### Filters -/

theorem sameTree_of_toJson (hf : IsFilter f) (hg : IsFilter g) (h : f.toJson = g.toJson) : SameTree f g := by
  induction hf generalizing g with
  | @condition left right operator hleft hright =>
    cases hg with
    | @condition left' right' operator' hleft' hright' =>
      simp only [toJson, Json.array.injEq, List.cons.injEq, Json.string.injEq, and_true] at h
      obtain ⟨hl, hlabel, hr⟩ := h
      obtain rfl := label_inj hlabel
      exact .condition operator hl hr
    | group connective hlength => exact absurd h (toJson_condition_ne_group hlength)
  | @group connective operands hlength hfilters ih =>
    cases hg with
    | condition => exact absurd h.symm (toJson_condition_ne_group hlength)
    | @group connective' operands' hlength' hfilters' =>
      rw [← length_listToJson] at hlength hlength'
      obtain ⟨hlabel, hoperands⟩ := separated_inj hlength hlength' (Json.array.inj h)
      obtain rfl := connective_label_inj (Json.string.inj hlabel)
      exact .group connective (sameTree_of_listToJson hfilters' (fun operand hmem g hg => ih operand hmem hg) hoperands)

mutual

theorem toJson_of_sameTree : ∀ {f g : Grid}, SameTree f g → f.toJson = g.toJson
  | _, _, .condition operator hleft hright => by rw [toJson, toJson, hleft, hright]
  | _, _, .group connective hoperands => by rw [toJson, toJson, listToJson_of_sameTree hoperands]

theorem listToJson_of_sameTree : ∀ {operands operands' : List Grid}, List.Forall₂ SameTree operands operands' →
    listToJson operands = listToJson operands'
  | _, _, .nil => rfl
  | _, _, .cons hfirst hrest => by
    rw [listToJson, listToJson, toJson_of_sameTree hfirst, listToJson_of_sameTree hrest]

end

/-- Filters of groups and conditions have the same JSON exactly if they are the same tree of them, with the same connectives
    and operators and the operands in the same order, over sides with the same JSON. -/
theorem toJson_eq_iff (hf : IsFilter f) (hg : IsFilter g) : f.toJson = g.toJson ↔ SameTree f g :=
  ⟨sameTree_of_toJson hf hg, toJson_of_sameTree⟩

/-- Conditions in a group, over sides that are written like a condition, a connective and a list. -/
def nested (triple word pair : Grid) : Grid :=
  .group .and [.condition triple .eq word,
    .group .or [.condition (.field "B") .isIn pair, .condition (.field "C") .ne (.value .null)]]

theorem isFilter_nested {triple word pair : Grid} (htriple : IsSide triple) (hword : IsSide word) (hpair : IsSide pair) :
    IsFilter (nested triple word pair) := by
  have hB : IsSide (.field "B") := .term (.field "B")
  have hC : IsSide (.field "C") := .term (.field "C")
  have hinner : IsFilter (.group .or [.condition (.field "B") .isIn pair, .condition (.field "C") .ne (.value .null)]) :=
    .group .or (Nat.le_refl 2) (by simp [IsFilter.condition, hB, hC, hpair, IsSide.term, IsTerm.value])
  exact .group .and (Nat.le_refl 2) (by simp [IsFilter.condition, htriple, hword, hinner])

/-- The sides may be lists and fields in one filter, and values in the other. -/
theorem toJson_eq_iff_nested :
    let lists := nested (.list [.field "A", .value (.string "="), .value (.int 1)]) (.field "and")
      (.list [.field "x", .value (.int 2)])
    let values := nested (.value (.array [.string "A", .string "=", .int 1])) (.value (.string "and"))
      (.value (.array [.string "x", .int 2]))
    IsFilter lists ∧ IsFilter values ∧ (lists.toJson = values.toJson ↔ SameTree lists values) ∧
      lists.toJson = values.toJson := by
  intro lists values
  have hlists : IsFilter lists :=
    isFilter_nested (.list (by simp [IsTerm.value, IsTerm.field])) (.term (.field "and"))
      (.list (by simp [IsTerm.value, IsTerm.field]))
  have hvalues : IsFilter values :=
    isFilter_nested (.term (.value _)) (.term (.value _)) (.term (.value _))
  exact ⟨hlists, hvalues, toJson_eq_iff hlists hvalues, rfl⟩

end GridFilter.Grid
