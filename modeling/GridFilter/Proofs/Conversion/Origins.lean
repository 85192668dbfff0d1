import GridFilter.Proofs.Conversion.Leaves

/-! Nothing in a grid filter is invented. Every field name and every value in it comes from the tree that was converted,
    or is the null that a call of `ISNULL` brings in, and the default of a call of `ISNULL` never comes into it. -/

namespace GridFilter

/-! ### What stands in a grid filter -/

/-- Where a value stands in a grid filter: where an item of a value list may stand, or anywhere else. -/
inductive Place where
  | plain
  | item
deriving DecidableEq, Repr

/-- Where the right side of a condition stands. The items of a value list are compared one by one, by `=` or `!=`, or
    stay together after `in`. -/
def GridOperator.place : GridOperator → Place
  | .eq | .ne | .isIn => .item
  | .gt | .ge | .lt | .le | .between | .contains | .notContains => .plain

/-- A field name or a value in a grid filter. -/
inductive Occurrence where
  | field (name : String)
  | value (place : Place) (v : Value)

namespace Grid

mutual

/-- The field names and values of a grid filter that stands at a place, from left to right, at any depth. -/
def occurrences (place : Place) : Grid → List Occurrence
  | .bool _ => []
  | .value v => [.value place v]
  | .field name => [.field name]
  | .list items => listOccurrences place items
  | .condition left operator right => left.occurrences .plain ++ right.occurrences operator.place
  | .group _ operands => listOccurrences place operands

/-- Those of each filter of a list. -/
def listOccurrences (place : Place) : List Grid → List Occurrence
  | [] => []
  | item :: rest => item.occurrences place ++ listOccurrences place rest

end

theorem mem_listOccurrences {place : Place} {items : List Grid} {o : Occurrence} :
    o ∈ listOccurrences place items ↔ ∃ item ∈ items, o ∈ item.occurrences place := by
  induction items with
  | nil => simp [listOccurrences]
  | cons item rest ih => simp [listOccurrences, ih]

mutual

/-- What stands in a grid filter stands in its leaves. -/
theorem mem_occurrences {place : Place} {o : Occurrence} : ∀ {grid : Grid}, o ∈ grid.occurrences place →
    ∃ leaf ∈ grid.leaves, o ∈ leaf.occurrences place
  | .group _ operands, h => @mem_occurrences_list place o operands h
  | .value _, h | .field _, h | .list _, h | .condition .., h => ⟨_, List.mem_singleton_self _, h⟩

theorem mem_occurrences_list {place : Place} {o : Occurrence} : ∀ {operands : List Grid},
    o ∈ listOccurrences place operands → ∃ leaf ∈ listLeaves operands, o ∈ leaf.occurrences place
  | operand :: rest, h => by
    rcases List.mem_append.mp h with h | h
    · obtain ⟨leaf, hleaf, ho⟩ := mem_occurrences h
      exact ⟨leaf, List.mem_append_left _ hleaf, ho⟩
    · obtain ⟨leaf, hleaf, ho⟩ := mem_occurrences_list h
      exact ⟨leaf, List.mem_append_right _ hleaf, ho⟩

end

end Grid

/-! ### What stands in a tree -/

/-- What a tree brings into the grid filter. -/
inductive Origin where
  /-- The name of a field. -/
  | field (name : String)
  /-- A literal, or the value of a placeholder. -/
  | value (v : Value)
  /-- A literal or the value of a placeholder as an item after `IN` or `NOT IN`. -/
  | item (v : Value)
  /-- The null of a call of `ISNULL`: the call has no arguments, or asks whether a field is null. -/
  | null

namespace Node
variable (resolve : Resolver)

mutual

/-- The literals and the values of placeholders that a node may be converted into by itself, outside every comparison
    and outside the defaults of `ISNULL`. -/
def ownValues : Node → List Value
  | .logical _ left right => left.ownValues ++ right.ownValues
  | .isNull arguments => firstValues arguments
  | .literal v => [v]
  | .placeholder name => [resolve.valueOf name]
  | .comparison .. | .field _ => []

/-- Those of the first argument; without arguments a call is null. -/
def firstValues : List Node → List Value
  | [] => [.null]
  | first :: _ => first.ownValues

end

/-- The values that the items of a right side may be converted into. -/
def itemValues : Operand → List Value
  | .single node => node.ownValues resolve
  | .list nodes => nodes.flatMap (ownValues resolve)
  | .range low high => low.ownValues resolve ++ high.ownValues resolve

/-- The items that a right side brings in: those after `IN` and `NOT IN`. -/
def itemOrigins (operator : Comparison) (operand : Operand) : List Origin :=
  match operator with
  | .isIn | .notIn => (itemValues resolve operand).map .item
  | .eq | .ne | .gt | .ge | .lt | .le | .between | .like | .notLike => []

/-- The null that a call of `ISNULL` brings in. -/
def nullOrigins : List Node → List Origin
  | [] | .field _ :: _ :: _ => [.null]
  | _ => []

mutual

/-- What a tree brings into the grid filter; the arguments of `ISNULL` behind the first one bring in nothing. -/
def origins : Node → List Origin
  | .logical _ left right => left.origins ++ right.origins
  | .comparison subject operator operand =>
    subject.origins ++ operandOrigins operand ++ itemOrigins resolve operator operand
  | .isNull arguments => firstOrigins arguments ++ nullOrigins arguments
  | .field name => [.field name]
  | .literal v => [.value v]
  | .placeholder name => [.value (resolve.valueOf name)]

/-- What a right side brings in. -/
def operandOrigins : Operand → List Origin
  | .single node => node.origins
  | .list nodes => listOrigins nodes
  | .range low high => low.origins ++ high.origins

/-- What each node of a list brings in. -/
def listOrigins : List Node → List Origin
  | [] => []
  | node :: rest => node.origins ++ listOrigins rest

/-- What the first argument brings in. -/
def firstOrigins : List Node → List Origin
  | [] => []
  | first :: _ => first.origins

end

end Node

/-! ### Where an occurrence comes from -/

/-- A value that a list is made of, or a text that stands between the commas of another. -/
inductive Value.IsPart : Value → Value → Prop where
  | element {v : Value} {values : List Value} : v ∈ values → IsPart v (.array values)
  | piece {text item : String} : item ∈ Text.commaItems text → IsPart (.string item) (.string text)

/-- What an occurrence owes its presence to. Only where an item may stand it can be a part of one. -/
inductive Occurrence.ComesFrom (origins : List Origin) : Occurrence → Prop where
  | field {name : String} : .field name ∈ origins → ComesFrom origins (.field name)
  | value {place : Place} {v : Value} : .value v ∈ origins → ComesFrom origins (.value place v)
  | part {v whole : Value} : .item whole ∈ origins → v.IsPart whole → ComesFrom origins (.value .item v)
  | null {place : Place} : .null ∈ origins → ComesFrom origins (.value place .null)

theorem Occurrence.ComesFrom.mono {o : Occurrence} {origins others : List Origin} (h : o.ComesFrom origins)
    (hsubset : origins ⊆ others) : o.ComesFrom others := by
  cases h with
  | field h => exact .field (hsubset h)
  | value h => exact .value (hsubset h)
  | part h hpart => exact .part (hsubset h) hpart
  | null h => exact .null (hsubset h)

namespace Conversion
open Grid

variable {setting : Setting} {origins others : List Origin} {own more : List Value} {operator : Comparison}
  {left right whole leaf : Grid}

/-- Wherever a grid filter stands, what is in it comes from the origins. -/
def Accounted (origins : List Origin) (grid : Grid) : Prop :=
  ∀ place, ∀ o ∈ grid.occurrences place, o.ComesFrom origins

/-- A leaf that comes from the origins, and is one of the own values if it is a value. -/
structure Explained (origins : List Origin) (own : List Value) (leaf : Grid) : Prop where
  accounted : Accounted origins leaf
  own : ∀ v, leaf = .value v → v ∈ own

theorem Explained.mono (h : Explained origins own leaf) (hsubset : origins ⊆ others) (hown : own ⊆ more) :
    Explained others more leaf :=
  ⟨fun place o ho => (h.accounted place o ho).mono hsubset, fun v hv => hown (h.own v hv)⟩

theorem explained_value {v : Value} (hv : v ∈ own) (h : .value v ∈ origins ∨ v = .null ∧ .null ∈ origins) :
    Explained origins own (.value v) := by
  refine ⟨fun place o ho => ?_, fun w hw => ?_⟩
  · obtain rfl := List.mem_singleton.mp ho
    rcases h with h | ⟨rfl, h⟩
    · exact .value h
    · exact .null h
  · cases hw
    exact hv

theorem explained_field {name : String} (h : .field name ∈ origins) : Explained origins own (.field name) := by
  refine ⟨fun place o ho => ?_, nofun⟩
  obtain rfl := List.mem_singleton.mp ho
  exact .field h

theorem explained_condition {operator : GridOperator} (hleft : Accounted origins left)
    (hright : ∀ o ∈ right.occurrences operator.place, o.ComesFrom origins) :
    Explained origins own (.condition left operator right) := by
  refine ⟨fun place o ho => ?_, nofun⟩
  rcases List.mem_append.mp ho with ho | ho
  · exact hleft .plain o ho
  · exact hright o ho

theorem accounted_of_leaves (h : ∀ leaf ∈ whole.leaves, Accounted origins leaf) : Accounted origins whole := by
  intro place o ho
  obtain ⟨leaf, hleaf, ho⟩ := mem_occurrences ho
  exact h leaf hleaf place o ho

/-! ### Parts of a tree -/

variable (setting) in
/-- The leaves of a part are explained. What `ISNULL` over a field stands for may be compared with null too. -/
structure PartExplained (origins : List Origin) (own : List Value) (part : Part) : Prop where
  leaves : ∀ leaf ∈ part.leaves setting, Explained origins own leaf
  null : ∀ name default, part = .fieldOr name default → .null ∈ origins

theorem PartExplained.mono {part : Part} (h : PartExplained setting origins own part) (hsubset : origins ⊆ others)
    (hown : own ⊆ more) : PartExplained setting others more part :=
  ⟨fun leaf hleaf => (h.leaves leaf hleaf).mono hsubset hown, fun name default hpart => hsubset (h.null name default hpart)⟩

theorem PartExplained.grid_leaves {part : Part} (h : PartExplained setting origins own part) :
    ∀ leaf ∈ (part.grid setting).leaves, Explained origins own leaf :=
  fun leaf hleaf => h.leaves leaf ((thinned_grid part).sublist.mem hleaf)

theorem PartExplained.accounted {part : Part} (h : PartExplained setting origins own part) :
    Accounted origins (part.grid setting) :=
  accounted_of_leaves fun leaf hleaf => (h.grid_leaves leaf hleaf).accounted

/-- A part that is a value is one of the own values. -/
theorem PartExplained.mem_own {part : Part} {v : Value} (h : PartExplained setting origins own part)
    (hv : part.grid setting = .value v) : v ∈ own :=
  (h.grid_leaves (.value v) (by rw [hv]; exact List.mem_singleton_self _)).own v rfl

theorem explained_joined {connective : Connective} {left right : Part} (hleft : PartExplained setting origins own left)
    (hright : PartExplained setting others more right) :
    PartExplained setting (origins ++ others) (own ++ more) (joined setting connective left right) := by
  refine ⟨fun leaf hleaf => ?_, nofun⟩
  rcases List.mem_append.mp ((thinned_joined left right).sublist.mem hleaf) with hleaf | hleaf
  · exact (hleft.leaves leaf hleaf).mono (List.subset_append_left _ _) (List.subset_append_left _ _)
  · exact (hright.leaves leaf hleaf).mono (List.subset_append_right _ _) (List.subset_append_right _ _)

theorem explained_coalesced {first : Part} {rest : List Part} (h : PartExplained setting origins own first)
    (hnull : ∀ name, first = .field name → rest ≠ [] → .null ∈ origins) :
    PartExplained setting origins own (coalesced setting (first :: rest)) := by
  unfold coalesced
  split
  · next hnil => cases hnil
  · next name default others hfirst =>
    cases hfirst
    exact ⟨h.leaves, fun _ _ _ => hnull name rfl (List.cons_ne_nil _ _)⟩
  · next name others hfirst =>
    cases hfirst
    exact ⟨h.leaves, nofun⟩
  · next hfirst =>
    cases hfirst
    exact ⟨h.grid_leaves, nofun⟩

/-! ### Relational comparisons -/

theorem explained_fold (hleft : Accounted origins left)
    (hright : ∀ o ∈ right.occurrences (GridOperator.ofComparison operator).place, o.ComesFrom origins) :
    ∀ leaf ∈ (foldCondition setting left operator right).leaves, Explained origins own leaf := by
  rcases foldCondition_cases setting left operator right with h | ⟨-, l, r, b, -, -, -, h⟩
  · rw [h, leaves, List.forall_mem_singleton]
    exact explained_condition hleft hright
  · rw [h]
    exact List.forall_mem_nil _

theorem explained_coalescedCondition {name : String} {default : Grid} (hname : .field name ∈ origins)
    (hnull : .null ∈ origins) (hright : Accounted origins right) :
    ∀ leaf ∈ (coalescedCondition setting name default operator right).leaves, Explained origins own leaf := by
  have hfield : Accounted origins (.field name) := (explained_field hname : Explained origins own _).accounted
  have hcompared : Explained origins own (.condition (.field name) (.ofComparison operator) right) :=
    explained_condition hfield (hright _)
  have hasked : Explained origins own (.condition (.field name) .eq (.value .null)) :=
    explained_condition hfield fun o ho => by
      obtain rfl := List.mem_singleton.mp ho
      exact .null hnull
  rw [coalescedCondition_eq]
  split
  · simp only [leaves, listLeaves, List.append_nil, List.singleton_append]
    exact List.forall_mem_cons.mpr ⟨hcompared, List.forall_mem_singleton.mpr hasked⟩
  · exact List.forall_mem_singleton.mpr hcompared

theorem explained_relational {left right : Part} (hleft : PartExplained setting origins own left)
    (hright : PartExplained setting origins more right) :
    ∀ leaf ∈ (relational setting left operator right).leaves, Explained origins [] leaf := by
  have hname {part : Part} {own : List Value} {name : String} {default : Grid}
      (h : PartExplained setting origins own part) (hpart : part = .fieldOr name default) : .field name ∈ origins := by
    subst hpart
    cases (h.accounted .plain (.field name) (List.mem_singleton_self _)) with
    | field h => exact h
  rcases relational_cases setting left operator right with h | ⟨-, b, -, h⟩
  · rw [h]
    unfold undecidedRelational
    split
    · next name default =>
      exact explained_coalescedCondition (hname hleft rfl) (hleft.null name default rfl) hright.accounted
    · next name default _ =>
      exact explained_coalescedCondition (hname hright rfl) (hright.null name default rfl) hleft.accounted
    · exact explained_fold hleft.accounted (hright.accounted _)
  · rw [h]
    exact List.forall_mem_nil _

/-! ### Lists -/

/-- An item that a list is taken apart into is one of its items, or a part of an item that is a value. -/
theorem mem_expandedItems {item : Grid} {items : List Grid} (h : item ∈ expandedItems items) :
    item ∈ items ∨ ∃ v whole, item = .value v ∧ .value whole ∈ items ∧ v.IsPart whole := by
  have hflattened : item ∈ items.flatMap flattened →
      item ∈ items ∨ ∃ v whole, item = .value v ∧ .value whole ∈ items ∧ v.IsPart whole := by
    intro h
    obtain ⟨whole, hwhole, hitem⟩ := List.mem_flatMap.mp h
    unfold flattened at hitem
    split at hitem
    · next values =>
      obtain ⟨v, hv, rfl⟩ := List.mem_map.mp hitem
      exact .inr ⟨v, .array values, rfl, hwhole, .element hv⟩
    · obtain rfl := List.mem_singleton.mp hitem
      exact .inl hwhole
  unfold expandedItems at h
  split at h
  · next text =>
    split at h
    · obtain ⟨piece, hpiece, rfl⟩ := List.mem_map.mp h
      exact .inr ⟨.string piece, .string text, rfl, List.mem_singleton_self _, .piece hpiece⟩
    · exact .inl h
  · exact hflattened h

theorem explained_eachItem {connective : Connective} {items : List Grid} (hleft : Accounted origins left)
    (hitems : ∀ item ∈ items, ∀ o ∈ item.occurrences (GridOperator.ofComparison operator).place, o.ComesFrom origins) :
    ∀ leaf ∈ (eachItem setting left operator connective items).leaves, Explained origins own leaf := by
  unfold eachItem
  split
  · exact List.forall_mem_singleton.mpr (explained_condition hleft (List.forall_mem_nil _))
  · intro leaf hleaf
    have hmem := (thinned_combine setting.shortCircuit _).sublist.mem hleaf
    rw [List.flatMap_map] at hmem
    obtain ⟨item, hitem, hmem⟩ := List.mem_flatMap.mp hmem
    exact explained_fold hleft (hitems item hitem) leaf hmem

theorem explained_membership {negated : Bool} {items : List Grid} (hleft : Accounted origins left)
    (hitems : ∀ item ∈ items, Accounted origins item)
    (hvalues : ∀ whole, .value whole ∈ items → .item whole ∈ origins) :
    ∀ leaf ∈ (membership setting left negated items).leaves, Explained origins own leaf := by
  have hexpanded : ∀ item ∈ expandedItems items, ∀ o ∈ item.occurrences .item, o.ComesFrom origins := by
    intro item hitem o ho
    rcases mem_expandedItems hitem with hitem | ⟨v, whole, rfl, hwhole, hpart⟩
    · exact hitems item hitem .item o ho
    · obtain rfl := List.mem_singleton.mp ho
      exact .part (hvalues whole hwhole) hpart
  unfold membership
  split
  · exact explained_eachItem hleft hexpanded
  · split
    · exact explained_eachItem hleft hexpanded
    · refine List.forall_mem_singleton.mpr (explained_condition hleft fun o ho => ?_)
      obtain ⟨item, hitem, ho⟩ := mem_listOccurrences.mp ho
      exact hexpanded item hitem o ho

/-! ### Right sides -/

/-- The parts of a right side. -/
def Side.parts : Side → List Part
  | .single part => [part]
  | .list parts => parts
  | .range low high => [low, high]

theorem items_eq_map (right : Side) : right.items setting = right.parts.map (·.grid setting) := by
  cases right <;> rfl

theorem accounted_side {right : Side} (h : ∀ item ∈ right.items setting, Accounted origins item) :
    Accounted origins (right.grid setting) := by
  cases right with
  | single part => exact h _ (List.mem_singleton_self _)
  | list parts | range low high =>
    intro place o ho
    obtain ⟨item, hitem, ho⟩ := mem_listOccurrences.mp ho
    exact h item hitem place o ho

theorem explained_comparison {left : Part} {right : Side} (hleft : PartExplained setting origins own left)
    (hright : ∀ part ∈ right.parts, PartExplained setting origins more part)
    (hvalues : operator ∈ [.isIn, .notIn] → ∀ v ∈ more, .item v ∈ origins) :
    ∀ leaf ∈ (comparison setting left operator right).leaves, Explained origins [] leaf := by
  have hitems : ∀ item ∈ right.items setting, Accounted origins item := by
    rw [items_eq_map, List.forall_mem_map]
    exact fun part hpart => (hright part hpart).accounted
  have hmember (hin : operator ∈ [.isIn, .notIn]) (negated : Bool) :
      ∀ leaf ∈ (membership setting (left.grid setting) negated (right.items setting)).leaves,
        Explained origins [] leaf := by
    refine explained_membership hleft.accounted hitems fun whole hwhole => ?_
    rw [items_eq_map] at hwhole
    obtain ⟨part, hpart, hwhole⟩ := List.mem_map.mp hwhole
    exact hvalues hin whole ((hright part hpart).mem_own hwhole)
  have hplain : ∀ leaf ∈ (plainCondition setting left operator right).leaves, Explained origins [] leaf :=
    List.forall_mem_singleton.mpr (explained_condition hleft.accounted (accounted_side hitems _))
  cases operator with
  | isIn => exact hmember (by decide) false
  | notIn => exact hmember (by decide) true
  | between | like | notLike => exact hplain
  | eq | ne | gt | ge | lt | le =>
    cases right with
    | single part => exact explained_relational hleft (hright part (List.mem_singleton_self _))
    | list | range => exact hplain

/-! ### Trees -/

mutual

/-- A part of a tree is explained by what the tree brings in. -/
theorem part_explained : ∀ node : Node,
    PartExplained setting (node.origins setting.resolve) (node.ownValues setting.resolve) (part setting node)
  | .logical connective left right => explained_joined (part_explained left) (part_explained right)
  | .comparison subject operator operand => by
    have hsubject := (part_explained subject).mono
      (List.subset_append_of_subset_left (Node.itemOrigins setting.resolve operator operand)
        (List.subset_append_left _ (Node.operandOrigins setting.resolve operand))) (List.Subset.refl _)
    have hside (part : Part) (hpart : part ∈ (side setting operand).parts) := (side_explained operand part hpart).mono
      (List.subset_append_of_subset_left (Node.itemOrigins setting.resolve operator operand)
        (List.subset_append_right (Node.origins setting.resolve subject) _)) (List.Subset.refl _)
    refine ⟨explained_comparison hsubject hside fun hin v hv => List.mem_append_right _ ?_, nofun⟩
    have hitem : .item v ∈ (Node.itemValues setting.resolve operand).map Origin.item := List.mem_map_of_mem hv
    rcases List.mem_cons.mp hin with rfl | hin
    · exact hitem
    · obtain rfl := List.mem_singleton.mp hin
      exact hitem
  | .isNull [] => ⟨List.forall_mem_singleton.mpr (explained_value (List.mem_singleton_self _)
      (.inr ⟨rfl, List.mem_singleton_self _⟩)), nofun⟩
  | .isNull (first :: rest) => by
    have hfirst := (part_explained first).mono
      (List.subset_append_left _ (Node.nullOrigins (first :: rest))) (List.Subset.refl _)
    refine explained_coalesced hfirst fun name hname hrest => List.mem_append_right _ ?_
    obtain rfl := eq_field_of_part hname
    cases rest with
    | nil => exact absurd rfl hrest
    | cons default others => exact List.mem_singleton_self _
  | .field name => ⟨List.forall_mem_singleton.mpr (explained_field (List.mem_singleton_self _)), nofun⟩
  | .literal v | .placeholder name => ⟨List.forall_mem_singleton.mpr
      (explained_value (List.mem_singleton_self _) (.inl (List.mem_singleton_self _))), nofun⟩

theorem side_explained : ∀ operand : Operand, ∀ part ∈ (side setting operand).parts,
    PartExplained setting (Node.operandOrigins setting.resolve operand) (Node.itemValues setting.resolve operand) part
  | .single node => List.forall_mem_singleton.mpr (part_explained node)
  | .list nodes => parts_explained nodes
  | .range low high => List.forall_mem_cons.mpr
      ⟨(part_explained low).mono (List.subset_append_left _ _) (List.subset_append_left _ _),
        List.forall_mem_singleton.mpr
          ((part_explained high).mono (List.subset_append_right _ _) (List.subset_append_right _ _))⟩

theorem parts_explained : ∀ nodes : List Node, ∀ part ∈ parts setting nodes,
    PartExplained setting (Node.listOrigins setting.resolve nodes)
      (nodes.flatMap (Node.ownValues setting.resolve)) part
  | [] => nofun
  | node :: rest => List.forall_mem_cons.mpr
      ⟨(part_explained node).mono (List.subset_append_left _ _) (List.subset_append_left _ _),
        fun part hpart =>
          (parts_explained rest part hpart).mono (List.subset_append_right _ _) (List.subset_append_right _ _)⟩

end

end Conversion

/-- Every field name and every value in a converted tree comes from the tree. It is the name of a field, a literal or
    the value of a placeholder that stands outside the arguments of `ISNULL` behind the first one; or, where the items
    after `IN` or `NOT IN` stand, an element of such a list or a piece of such a text between its commas; or it is
    null, and a call of `ISNULL` has no arguments, or has a field for its first one. -/
theorem Node.comesFrom_convertWith (node : Node) (options : ConvertOptions) (resolve : Resolver) :
    ∀ o ∈ (node.convertWith options resolve).occurrences .plain, o.ComesFrom (node.origins resolve) :=
  (@Conversion.part_explained ⟨options.shortCircuit, options.expandIn, resolve⟩ node).accounted .plain

/-- `ISNULL(Size, 'S') != 'M' AND Code IN ({Set.Codes})`. -/
def defaultedTree : Node :=
  .logical .and
    (.compare (.isNull [.field "Size", .literal (.string "S")]) .ne (.literal (.string "M")))
    (.comparison (.field "Code") .isIn (.list [.placeholder "Set.Codes"]))

/-- One of two pieces of a text is compared, and a null stands where the default `'S'` satisfies the comparison; the
    default itself is no origin. -/
theorem Node.comesFrom_convertWith_defaultedTree :
    let resolve : Resolver := fun _ => some (.string "a, b")
    let whole : Value := .string "a, b"
    let taken : List Occurrence := [.value .item .null, .value .item (.string "b")]
    (defaultedTree.origins resolve =
        [.field "Size", .null, .value (.string "M"), .field "Code", .value whole, .item whole] ∧
      ∀ o ∈ taken, o ∈ (defaultedTree.convertWith {} resolve).occurrences .plain) ∧
    ∀ o ∈ taken, o.ComesFrom (defaultedTree.origins resolve) := by
  intro resolve whole taken
  have hoccurrences : (defaultedTree.convertWith {} resolve).occurrences .plain =
      [.field "Size", .value .item (.string "M"), .field "Size", .value .item .null, .field "Code",
        .value .item (.string "a"), .field "Code", .value .item (.string "b")] := rfl
  have htaken : ∀ o ∈ taken, o ∈ (defaultedTree.convertWith {} resolve).occurrences .plain := by
    rw [hoccurrences]
    simp [taken]
  exact ⟨⟨rfl, htaken⟩, fun o ho => Node.comesFrom_convertWith defaultedTree {} resolve o (htaken o ho)⟩

end GridFilter
