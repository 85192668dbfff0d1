import GridFilter.Proofs.Conversion.Cases

/-! Converted filters are folded and flat. At every depth, the sides of conditions and the items of lists included, a
    group has two operands or more and none of them is a group of its own connective. With short-circuiting no operand
    is a truth value, and without it the filter holds none at all. -/

namespace GridFilter

/-! ### Parts of a grid filter -/

namespace Grid

mutual

/-- A grid filter and all that is in it, at every depth. -/
def parts : Grid → List Grid
  | .condition left operator right => .condition left operator right :: (left.parts ++ right.parts)
  | .group connective operands => .group connective operands :: listParts operands
  | .list items => .list items :: listParts items
  | .bool b => [.bool b]
  | .value v => [.value v]
  | .field name => [.field name]

/-- All that is in the items of a list, at every depth. -/
def listParts : List Grid → List Grid
  | [] => []
  | item :: rest => item.parts ++ listParts rest

end

theorem mem_listParts {part : Grid} {items : List Grid} :
    part ∈ listParts items ↔ ∃ item ∈ items, part ∈ item.parts := by
  induction items with
  | nil => simp [listParts]
  | cons item rest ih => simp [listParts, ih]

/-- The operands of a group that is folded and flat. -/
structure FoldedOperands (shortCircuit : Bool) (connective : Connective) (operands : List Grid) : Prop where
  two_le : 2 ≤ operands.length
  flat : ∀ inner, .group connective inner ∉ operands
  undecided : shortCircuit = true → ∀ b, .bool b ∉ operands

/-- What is asked of a single part: a group is folded and flat, and a truth value comes with short-circuiting only. -/
def FoldedPart (shortCircuit : Bool) : Grid → Prop
  | .group connective operands => FoldedOperands shortCircuit connective operands
  | .bool _ => shortCircuit = true
  | _ => True

/-- Every part of a grid filter is folded and flat. -/
def Folded (shortCircuit : Bool) (grid : Grid) : Prop := ∀ part ∈ grid.parts, FoldedPart shortCircuit part

variable {shortCircuit : Bool}

@[simp] theorem folded_value {v : Value} : Folded shortCircuit (.value v) := by simp [Folded, parts, FoldedPart]

@[simp] theorem folded_field {name : String} : Folded shortCircuit (.field name) := by
  simp [Folded, parts, FoldedPart]

@[simp] theorem folded_bool {b : Bool} : Folded shortCircuit (.bool b) ↔ shortCircuit = true := by
  simp [Folded, parts, FoldedPart]

@[simp] theorem folded_list {items : List Grid} :
    Folded shortCircuit (.list items) ↔ ∀ item ∈ items, Folded shortCircuit item := by
  simp only [Folded, parts, List.forall_mem_cons, mem_listParts, FoldedPart, true_and]
  exact ⟨fun h item hitem part hpart => h part ⟨item, hitem, hpart⟩,
    fun h part ⟨item, hitem, hpart⟩ => h item hitem part hpart⟩

@[simp] theorem folded_condition {left right : Grid} {operator : GridOperator} :
    Folded shortCircuit (.condition left operator right) ↔ Folded shortCircuit left ∧ Folded shortCircuit right := by
  simp [Folded, parts, FoldedPart, or_imp, forall_and]

@[simp] theorem folded_group {connective : Connective} {operands : List Grid} :
    Folded shortCircuit (.group connective operands) ↔
      FoldedOperands shortCircuit connective operands ∧ ∀ operand ∈ operands, Folded shortCircuit operand := by
  simp only [Folded, parts, List.forall_mem_cons, mem_listParts, FoldedPart]
  exact and_congr_right fun _ => ⟨fun h item hitem part hpart => h part ⟨item, hitem, hpart⟩,
    fun h part ⟨item, hitem, hpart⟩ => h item hitem part hpart⟩

end Grid

namespace Conversion
open Grid

variable {shortCircuit : Bool} {connective : Connective}

/-! ### Joining -/

/-- What splicing makes of a folded operand that is no truth value. -/
theorem mem_spliced {operand part : Grid} (h : Folded shortCircuit operand)
    (hbool : shortCircuit = true → operand.bool? = none) (hpart : part ∈ spliced connective operand) :
    Folded shortCircuit part ∧ (∀ inner, part ≠ .group connective inner) ∧
      (shortCircuit = true → ∀ b, part ≠ .bool b) := by
  unfold spliced at hpart
  split at hpart
  · next inner operands =>
    obtain ⟨hfolded, hoperands⟩ := folded_group.mp h
    split at hpart
    · next hinner =>
      subst hinner
      exact ⟨hoperands part hpart, fun more hp => hfolded.flat more (hp ▸ hpart),
        fun hs b hp => hfolded.undecided hs b (hp ▸ hpart)⟩
    · next hinner =>
      obtain rfl := List.mem_singleton.mp hpart
      exact ⟨h, fun more hp => hinner (by cases hp; rfl), by simp⟩
  · next hgroup =>
    obtain rfl := List.mem_singleton.mp hpart
    refine ⟨h, fun more hp => hgroup _ _ hp, fun hs b hp => ?_⟩
    simp [hp, bool?] at hbool
    simp [hbool] at hs

theorem spliced_ne_nil {operand : Grid} (h : Folded shortCircuit operand) : spliced connective operand ≠ [] := by
  unfold spliced
  split
  · split
    · intro hnil
      have := (folded_group.mp h).1.two_le
      simp [hnil] at this
    · simp
  · simp

/-- Folded operands are joined into a folded filter. -/
theorem folded_combine {operands : List Grid} (hne : operands ≠ [])
    (h : ∀ operand ∈ operands, Folded shortCircuit operand) :
    Folded shortCircuit (combine shortCircuit connective operands) := by
  -- Each operand that is kept comes from splicing one that is not decided.
  have kept : ∀ part ∈ (undecided shortCircuit operands).flatMap (spliced connective),
      Folded shortCircuit part ∧ (∀ inner, part ≠ .group connective inner) ∧
        (shortCircuit = true → ∀ b, part ≠ .bool b) := by
    intro part hpart
    obtain ⟨operand, hmem, hsplice⟩ := List.mem_flatMap.mp hpart
    cases shortCircuit with
    | false => exact mem_spliced (h operand hmem) (by simp) hsplice
    | true =>
      obtain ⟨hoperand, hbool⟩ := List.mem_filter.mp hmem
      exact mem_spliced (h operand hoperand) (fun _ => by simpa using hbool) hsplice
  unfold combine
  split
  · next hdecided => simp_all
  · split
    · next hnil =>
      -- Without short-circuiting nothing is left out, and splicing empties no operand.
      cases shortCircuit with
      | true => simp
      | false =>
        obtain ⟨operand, hoperand⟩ := List.exists_mem_of_ne_nil _ hne
        rw [List.flatMap_eq_nil_iff] at hnil
        exact absurd (hnil operand hoperand) (spliced_ne_nil (h operand hoperand))
    · next operand hone => exact (kept operand (by simp [hone])).1
    · next parts hnil hone =>
      refine folded_group.mpr ⟨⟨?_, fun inner hmem => (kept _ hmem).2.1 inner rfl,
        fun hs b hmem => (kept _ hmem).2.2 hs b rfl⟩, fun part hmem => (kept part hmem).1⟩
      match hparts : (undecided shortCircuit operands).flatMap (spliced connective) with
      | [] => exact absurd hparts hnil
      | [operand] => exact absurd hparts (hone operand)
      | _ :: _ :: _ => simp

/-! ### Parts of a tree -/

variable {setting : Setting}

/-- A part whose grid filter, and whose operands if it is a chain, are folded. -/
def FoldedPart (setting : Setting) : Part → Prop
  | .chain _ operands => operands ≠ [] ∧ ∀ operand ∈ operands, Folded setting.shortCircuit operand
  | .other grid => Folded setting.shortCircuit grid
  | .literal _ | .field _ | .placeholder _ | .fieldOr _ _ | .placeholderOr _ _ => True

theorem folded_grid {part : Part} (h : FoldedPart setting part) : Folded setting.shortCircuit (part.grid setting) := by
  cases part with
  | chain connective operands => exact folded_combine h.1 h.2
  | other grid => exact h
  | literal | placeholder | placeholderOr => exact folded_value
  | field | fieldOr => exact folded_field

theorem folded_operands {part : Part} (h : FoldedPart setting part) :
    part.operands setting connective ≠ [] ∧
      ∀ operand ∈ part.operands setting connective, Folded setting.shortCircuit operand := by
  have hgrid := folded_grid h
  cases part with
  | chain inner operands =>
    by_cases hinner : inner = connective
    · rw [Part.operands, if_pos hinner]
      exact h
    · simpa [Part.operands, hinner] using hgrid
  | _ => simpa [Part.operands] using hgrid

theorem foldedPart_joined {left right : Part} (hleft : FoldedPart setting left) (hright : FoldedPart setting right) :
    FoldedPart setting (joined setting connective left right) := by
  refine ⟨by simp, fun operand hmem => ?_⟩
  rcases List.mem_append.mp hmem with hmem | hmem
  · exact (folded_operands hleft).2 operand hmem
  · exact List.mem_singleton.mp hmem ▸ folded_grid hright

theorem foldedPart_coalesced {arguments : List Part} (h : ∀ part ∈ arguments, FoldedPart setting part) :
    FoldedPart setting (coalesced setting arguments) := by
  unfold coalesced
  split
  · exact folded_value
  · trivial
  · trivial
  · next first others _ _ => exact folded_grid (h first (by simp))

/-! ### Comparisons -/

theorem folded_foldCondition {left right : Grid} {operator : Comparison} (hleft : Folded setting.shortCircuit left)
    (hright : Folded setting.shortCircuit right) :
    Folded setting.shortCircuit (foldCondition setting left operator right) := by
  rcases foldCondition_cases setting left operator right with h | ⟨hs, l, r, b, -, -, -, h⟩
  · rw [h]
    exact folded_condition.mpr ⟨hleft, hright⟩
  · rw [h]
    exact folded_bool.mpr hs

theorem folded_coalescedCondition {name : String} {default right : Grid} {operator : Comparison}
    (hright : Folded setting.shortCircuit right) :
    Folded setting.shortCircuit (coalescedCondition setting name default operator right) := by
  unfold coalescedCondition
  split
  · exact folded_combine (by simp) (by simp [hright])
  · simp [hright]

theorem folded_relational {left right : Part} {operator : Comparison} (hleft : FoldedPart setting left)
    (hright : FoldedPart setting right) :
    Folded setting.shortCircuit (relational setting left operator right) := by
  rcases relational_cases setting left operator right with h | ⟨hs, b, -, h⟩
  · rw [h]
    unfold undecidedRelational
    split
    · exact folded_coalescedCondition (folded_grid hright)
    · exact folded_coalescedCondition (folded_grid hleft)
    · exact folded_foldCondition (folded_grid hleft) (folded_grid hright)
  · rw [h]
    exact folded_bool.mpr hs

theorem folded_expandedItems {items : List Grid} (h : ∀ item ∈ items, Folded shortCircuit item) :
    ∀ item ∈ expandedItems items, Folded shortCircuit item := by
  unfold expandedItems
  split
  · split
    · simp
    · exact h
  · intro item hitem
    obtain ⟨whole, hwhole, hitem⟩ := List.mem_flatMap.mp hitem
    unfold flattened at hitem
    split at hitem
    · obtain ⟨v, -, rfl⟩ := List.mem_map.mp hitem
      exact folded_value
    · exact List.mem_singleton.mp hitem ▸ h whole hwhole

theorem folded_conditions {left : Grid} {operator : Comparison} {items : List Grid}
    (hleft : Folded setting.shortCircuit left) (h : ∀ item ∈ items, Folded setting.shortCircuit item) :
    ∀ condition ∈ items.map (foldCondition setting left operator), Folded setting.shortCircuit condition := by
  intro condition hmem
  obtain ⟨item, hitem, rfl⟩ := List.mem_map.mp hmem
  exact folded_foldCondition hleft (h item hitem)

theorem folded_eachItem {left : Grid} {operator : Comparison} {items : List Grid}
    (hleft : Folded setting.shortCircuit left) (h : ∀ item ∈ items, Folded setting.shortCircuit item) :
    Folded setting.shortCircuit (eachItem setting left operator connective items) := by
  unfold eachItem
  split
  · simp [hleft]
  · next hne => exact folded_combine (by simpa using hne) (folded_conditions hleft h)

theorem folded_membership {left : Grid} (negated : Bool) {items : List Grid}
    (hleft : Folded setting.shortCircuit left) (h : ∀ item ∈ items, Folded setting.shortCircuit item) :
    Folded setting.shortCircuit (membership setting left negated items) := by
  have hitems := folded_expandedItems h
  unfold membership
  split
  · exact folded_eachItem hleft hitems
  · split
    · exact folded_eachItem hleft hitems
    · exact folded_condition.mpr ⟨hleft, folded_list.mpr hitems⟩

/-- A right side whose parts are all folded. -/
def FoldedSide (setting : Setting) : Side → Prop
  | .single part => FoldedPart setting part
  | .list parts => ∀ part ∈ parts, FoldedPart setting part
  | .range low high => FoldedPart setting low ∧ FoldedPart setting high

theorem folded_side_items {right : Side} (h : FoldedSide setting right) :
    ∀ item ∈ right.items setting, Folded setting.shortCircuit item := by
  cases right with
  | single part => simpa [Side.items] using folded_grid h
  | list parts => simpa [Side.items] using fun part hpart => folded_grid (h part hpart)
  | range low high => simpa [Side.items] using ⟨folded_grid h.1, folded_grid h.2⟩

theorem folded_side_grid {right : Side} (h : FoldedSide setting right) :
    Folded setting.shortCircuit (right.grid setting) := by
  have hitems := folded_side_items h
  cases right with
  | single part => exact folded_grid h
  | list parts => exact folded_list.mpr hitems
  | range low high => exact folded_list.mpr hitems

theorem folded_comparison {left : Part} {operator : Comparison} {right : Side} (hleft : FoldedPart setting left)
    (hright : FoldedSide setting right) : Folded setting.shortCircuit (comparison setting left operator right) := by
  have hplain : Folded setting.shortCircuit (plainCondition setting left operator right) :=
    folded_condition.mpr ⟨folded_grid hleft, folded_side_grid hright⟩
  cases operator with
  | isIn => exact folded_membership false (folded_grid hleft) (folded_side_items hright)
  | notIn => exact folded_membership true (folded_grid hleft) (folded_side_items hright)
  | between | like | notLike => exact hplain
  | eq | ne | gt | ge | lt | le =>
    cases right with
    | single part => exact folded_relational hleft hright
    | list | range => exact hplain

/-! ### Trees -/

mutual

theorem foldedPart_part : ∀ node : Node, FoldedPart setting (part setting node)
  | .logical _ left right => foldedPart_joined (foldedPart_part left) (foldedPart_part right)
  | .comparison subject _ operand => folded_comparison (foldedPart_part subject) (foldedSide_side operand)
  | .isNull arguments => foldedPart_coalesced (foldedPart_parts arguments)
  | .field _ | .literal _ | .placeholder _ => trivial

theorem foldedSide_side : ∀ operand : Operand, FoldedSide setting (side setting operand)
  | .single node => foldedPart_part node
  | .list nodes => foldedPart_parts nodes
  | .range low high => ⟨foldedPart_part low, foldedPart_part high⟩

theorem foldedPart_parts : ∀ nodes : List Node, ∀ part ∈ parts setting nodes, FoldedPart setting part
  | [] => by simp [parts]
  | node :: rest => by
    simp only [parts, List.forall_mem_cons]
    exact ⟨foldedPart_part node, foldedPart_parts rest⟩

end

end Conversion

/-- Whatever tree is converted, against whatever source of values and with whatever options, the grid filter is
    folded and flat at every depth. -/
theorem Node.folded_convertWith (node : Node) (options : ConvertOptions) (resolve : Resolver) :
    (node.convertWith options resolve).Folded options.shortCircuit :=
  Conversion.folded_grid (Conversion.foldedPart_part node)

end GridFilter
