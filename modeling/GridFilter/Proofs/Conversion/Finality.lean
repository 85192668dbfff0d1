import GridFilter.Proofs.Conversion.Settled
import GridFilter.Proofs.Node.Parts

/-! A decision is final: where a filter is converted into a truth value, a source that knows more values never turns
    that around. Only the default of `ISNULL`, and a lone item after `IN` with a comma in its name, have to be known
    beforehand: the spelling of a placeholder without a value is compared there as if it were the value. -/

namespace GridFilter

namespace Conversion
open Grid

variable {setting : Setting} {more : Resolver} {names others : List String}

/-! ### Parts of a tree -/

/-- A part of a tree against a source of values, and the same part against one that knows more. -/
inductive PartStays (setting : Setting) (more : Resolver) (names : List String) : Part → Part → Prop where
  | chain (connective : Connective) {operands laters : List Grid} :
      List.Forall₂ (Stays setting.resolve names) operands laters →
      PartStays setting more names (.chain connective operands) (.chain connective laters)
  | literal (value : Value) : PartStays setting more names (.literal value) (.literal value)
  | field (name : String) : PartStays setting more names (.field name) (.field name)
  | placeholder {name : String} : name ∈ names → (∀ v, setting.resolve name = some v → more name = some v) →
      PartStays setting more names (.placeholder name) (.placeholder name)
  | fieldOr (name : String) (default later : Grid) :
      PartStays setting more names (.fieldOr name default) (.fieldOr name later)
  | placeholderOr {name : String} {default later : Option Grid} : name ∈ names →
      (∀ v, setting.resolve name = some v → more name = some v) →
      (setting.resolve name = some .null → later = default) →
      PartStays setting more names (.placeholderOr name default) (.placeholderOr name later)
  | other {before after : Grid} : Stays setting.resolve names before after →
      PartStays setting more names (.other before) (.other after)

theorem PartStays.mono {part later : Part} (h : PartStays setting more names part later) (hnames : names ⊆ others) :
    PartStays setting more others part later := by
  cases h with
  | chain connective hstays => exact .chain connective (hstays.imp fun _ _ h => h.mono hnames)
  | literal value => exact .literal value
  | field name => exact .field name
  | placeholder hname hmore => exact .placeholder (hnames hname) hmore
  | fieldOr name default later => exact .fieldOr name default later
  | placeholderOr hname hmore hdefault => exact .placeholderOr (hnames hname) hmore hdefault
  | other hstays => exact .other (hstays.mono hnames)

theorem stays_valueOf {name : String} (hname : name ∈ names)
    (hmore : ∀ v, setting.resolve name = some v → more name = some v) :
    Stays setting.resolve names (.value (setting.resolve.valueOf name)) (.value (more.valueOf name)) := by
  intro _
  cases hresolve : setting.resolve name with
  | none => exact .inr ⟨name, hname, hresolve, by rw [Resolver.valueOf, hresolve]; rfl⟩
  | some v => exact .inl (by rw [Resolver.valueOf, Resolver.valueOf, hresolve, hmore v hresolve])

section
variable {part later leftPart leftLater rightPart rightLater : Part} {operator : Comparison}

theorem PartStays.grid (hshort : setting.shortCircuit = true) (h : PartStays setting more names part later)
    (hfolded : FoldedPart setting part) :
    Stays setting.resolve names (part.grid setting) (later.grid (setting.against more)) := by
  cases h with
  | @chain connective operands laters hstays =>
    have hcombined : Stays setting.resolve names (combine true connective operands) (combine true connective laters) :=
      stays_combine (hshort ▸ hfolded.2) hstays
    rw [← hshort] at hcombined
    exact hcombined
  | literal | field | fieldOr => exact stays_rfl
  | placeholder hname hmore | placeholderOr hname hmore _ => exact stays_valueOf hname hmore
  | other hstays => exact hstays

theorem PartStays.operands (hshort : setting.shortCircuit = true) (connective : Connective)
    (h : PartStays setting more names part later) (hfolded : FoldedPart setting part) :
    List.Forall₂ (Stays setting.resolve names) (part.operands setting connective)
      (later.operands (setting.against more) connective) := by
  have hgrid := h.grid hshort hfolded
  have hone : List.Forall₂ (Stays setting.resolve names) [part.grid setting] [later.grid (setting.against more)] :=
    .cons hgrid .nil
  cases h with
  | chain inner hstays =>
    by_cases hinner : inner = connective
    · simpa [Part.operands, hinner] using hstays
    · simpa [Part.operands, hinner] using hone
  | _ => exact hone

theorem stays_joined (hshort : setting.shortCircuit = true) (connective : Connective)
    (hleft : PartStays setting more names leftPart leftLater)
    (hright : PartStays setting more others rightPart rightLater)
    (hfoldedLeft : FoldedPart setting leftPart) (hfoldedRight : FoldedPart setting rightPart) :
    PartStays setting more (names ++ others) (joined setting connective leftPart rightPart)
      (joined (setting.against more) connective leftLater rightLater) := by
  have hl := (hleft.mono (List.subset_append_left names others)).operands hshort connective hfoldedLeft
  have hr := (hright.mono (List.subset_append_right names others)).grid hshort hfoldedRight
  exact .chain connective (List.rel_append hl (.cons hr .nil))

/-- A call of `ISNULL`, the default of which does not change where the placeholder is known to be null. -/
theorem stays_coalesced (hshort : setting.shortCircuit = true) {arguments laters : List Part}
    (h : List.Forall₂ (PartStays setting more names) arguments laters)
    (hfolded : ∀ part ∈ arguments, FoldedPart setting part)
    (hdefault : ∀ name, arguments.head? = some (.placeholder name) → setting.resolve name = some .null →
      laters.tail.head?.map (·.grid (setting.against more)) = arguments.tail.head?.map (·.grid setting)) :
    PartStays setting more names (coalesced setting arguments) (coalesced (setting.against more) laters) := by
  cases h with
  | nil => exact .other stays_rfl
  | cons hfirst hrest =>
    have hgrid := hfirst.grid hshort (hfolded _ (by simp))
    cases hfirst with
    | @placeholder name hname hmore => exact .placeholderOr hname hmore (hdefault name rfl)
    | field name =>
      cases hrest with
      | nil => exact .other stays_rfl
      | cons => exact .fieldOr name _ _
    | _ => exact .other hgrid

/-- `ISNULL` over a placeholder without a value. -/
def Pending (setting : Setting) (part : Part) : Prop :=
  ∃ name default, part = .placeholderOr name default ∧ setting.resolve name = none

/-- More values change a decision about `ISNULL` only where the placeholder has no value. -/
theorem decideCoalesced?_stays (hcall : PartStays setting more names leftPart leftLater)
    (hother : PartStays setting more names rightPart rightLater) (operator : Comparison) :
    decideCoalesced? (setting.against more) leftLater operator rightLater =
      decideCoalesced? setting leftPart operator rightPart ∨ Pending setting leftPart := by
  cases hcall with
  | @placeholderOr name default later hname hmore hdefault =>
    cases hresolve : setting.resolve name with
    | none => exact .inr ⟨name, default, rfl, hresolve⟩
    | some v =>
      have hagain : (setting.against more).resolve name = some v := hmore v hresolve
      have hvalue : coalescedValue? (setting.against more) name later = coalescedValue? setting name default := by
        unfold coalescedValue?
        rw [hagain, hresolve]
        cases v with
        | null => rw [hdefault hresolve]
        | _ => rfl
      left
      cases hother with
      | literal value => rw [decideCoalesced?, decideCoalesced?, hvalue]
      | _ => rfl
  | _ => exact .inl rfl

/-- Nothing is decided about `ISNULL` over a placeholder without a value. -/
theorem isSettled_relational_of_pending (h : Pending setting leftPart ∨ Pending setting rightPart) :
    isSettled (relational setting leftPart operator rightPart) = false := by
  rcases relational_cases setting leftPart operator rightPart with hrelational | ⟨-, b, hdecided, -⟩
  · rw [hrelational]
    unfold undecidedRelational
    split
    · exact isSettled_coalescedCondition _ _ _ _
    · exact isSettled_coalescedCondition _ _ _ _
    · have hunread {part : Part} (hpending : Pending setting part) : ¬ IsReadable (part.grid setting) := by
        obtain ⟨name, default, rfl, hresolve⟩ := hpending
        have hspelled : Unresolved setting.resolve [name] ((Part.placeholderOr name default).grid setting) :=
          ⟨name, by simp, hresolve, by rw [Part.grid, Resolver.valueOf, hresolve]; rfl⟩
        exact hspelled.not_readable
      refine Bool.eq_false_iff.mpr fun hsettled => ?_
      obtain ⟨hl, hr⟩ := readable_of_isSettled hsettled
      rcases h with h | h
      · exact hunread h hl
      · exact hunread h hr
  · have hunknown {call other : Part} {operator : Comparison}
        (h : decideCoalesced? setting call operator other = some b) :
        ¬ Pending setting call ∧ ¬ Pending setting other := by
      obtain ⟨name, default, v, literal, rfl, rfl, hvalue, -⟩ := decideCoalesced?_eq_some h
      constructor
      · rintro ⟨_, _, hcall, hresolve⟩
        cases hcall
        simp [coalescedValue?, hresolve] at hvalue
      · rintro ⟨_, _, hcall, -⟩
        cases hcall
    rcases hdecided with hdecided | hdecided
    · exact absurd h (not_or.mpr (hunknown hdecided))
    · exact absurd h (not_or.mpr (hunknown hdecided).symm)

theorem PartStays.fieldOr_of_later {name : String} {default : Grid}
    (h : PartStays setting more names part (.fieldOr name default)) : ∃ known, part = .fieldOr name known := by
  cases h with
  | fieldOr _ known => exact ⟨known, rfl⟩

theorem stays_undecidedRelational (hleft : PartStays setting more names leftPart leftLater)
    (hright : PartStays setting more names rightPart rightLater)
    (hl : Stays setting.resolve names (leftPart.grid setting) (leftLater.grid (setting.against more)))
    (hr : Stays setting.resolve names (rightPart.grid setting) (rightLater.grid (setting.against more))) :
    Stays setting.resolve names (undecidedRelational setting leftPart operator rightPart)
      (undecidedRelational (setting.against more) leftLater operator rightLater) := by
  by_cases hfield : ∃ name default, leftPart = .fieldOr name default ∨ rightPart = .fieldOr name default
  · refine stays_of_not ?_
    unfold undecidedRelational
    split
    · exact isSettled_coalescedCondition _ _ _ _
    · exact isSettled_coalescedCondition _ _ _ _
    · next hnotLeft hnotRight =>
      obtain ⟨name, default, rfl | rfl⟩ := hfield
      · exact absurd rfl (hnotLeft name default)
      · exact absurd rfl (hnotRight name default)
  · rw [undecidedRelational_of_values, undecidedRelational_of_values]
    · exact stays_foldCondition hl hr
    · rintro name default rfl
      obtain ⟨known, hknown⟩ := hleft.fieldOr_of_later
      exact hfield ⟨name, known, .inl hknown⟩
    · rintro name default rfl
      obtain ⟨known, hknown⟩ := hright.fieldOr_of_later
      exact hfield ⟨name, known, .inr hknown⟩
    · exact fun name default h => hfield ⟨name, default, .inl h⟩
    · exact fun name default h => hfield ⟨name, default, .inr h⟩

theorem stays_relational (hleft : PartStays setting more names leftPart leftLater)
    (hright : PartStays setting more names rightPart rightLater)
    (hl : Stays setting.resolve names (leftPart.grid setting) (leftLater.grid (setting.against more)))
    (hr : Stays setting.resolve names (rightPart.grid setting) (rightLater.grid (setting.against more))) :
    Stays setting.resolve names (relational setting leftPart operator rightPart)
      (relational (setting.against more) leftLater operator rightLater) := by
  rcases decideCoalesced?_stays hleft hright operator with hfirst | hpending
  · rcases decideCoalesced?_stays hright hleft operator.inverse with hsecond | hpending
    · have hundecided := @stays_undecidedRelational setting more names _ _ _ _ operator hleft hright hl hr
      have hshort : (setting.against more).shortCircuit = setting.shortCircuit := rfl
      unfold relational
      rw [hfirst, hsecond, hshort]
      dsimp only
      generalize (decideCoalesced? setting leftPart operator rightPart <|>
        decideCoalesced? setting rightPart operator.inverse leftPart) = decided
      cases setting.shortCircuit with
      | false => exact hundecided
      | true =>
        cases decided with
        | none => exact hundecided
        | some b => exact stays_rfl
    · exact stays_of_not (isSettled_relational_of_pending (.inr hpending))
  · exact stays_of_not (isSettled_relational_of_pending (.inl hpending))

/-! ### Comparisons and trees -/

/-- A right side of a comparison, and the same one against a source of values that knows more. -/
inductive SideStays (setting : Setting) (more : Resolver) (names : List String) : Side → Side → Prop where
  | single {part later : Part} : PartStays setting more names part later →
      SideStays setting more names (.single part) (.single later)
  | list {parts laters : List Part} : List.Forall₂ (PartStays setting more names) parts laters →
      SideStays setting more names (.list parts) (.list laters)
  | range {low high lowLater highLater : Part} : PartStays setting more names low lowLater →
      PartStays setting more names high highLater →
      SideStays setting more names (.range low high) (.range lowLater highLater)

theorem grids_stay (hshort : setting.shortCircuit = true) {parts laters : List Part}
    (h : List.Forall₂ (PartStays setting more names) parts laters) (hfolded : ∀ part ∈ parts, FoldedPart setting part) :
    List.Forall₂ (Stays setting.resolve names) (parts.map (·.grid setting))
      (laters.map (·.grid (setting.against more))) := by
  induction h with
  | nil => exact .nil
  | cons hfirst hrest ih =>
    obtain ⟨hone, hothers⟩ := List.forall_mem_cons.mp hfolded
    exact .cons (hfirst.grid hshort hone) (ih hothers)

theorem SideStays.items (hshort : setting.shortCircuit = true) {right rightLater : Side}
    (h : SideStays setting more names right rightLater) (hfolded : FoldedSide setting right) :
    List.Forall₂ (Stays setting.resolve names) (right.items setting) (rightLater.items (setting.against more)) := by
  cases h with
  | single hpart => exact .cons (hpart.grid hshort hfolded) .nil
  | list hparts => exact grids_stay hshort hparts hfolded
  | range hlow hhigh => exact .cons (hlow.grid hshort hfolded.1) (.cons (hhigh.grid hshort hfolded.2) .nil)

theorem stays_comparison (hshort : setting.shortCircuit = true) {right rightLater : Side}
    (hleft : PartStays setting more names leftPart leftLater) (hright : SideStays setting more others right rightLater)
    (hfoldedLeft : FoldedPart setting leftPart) (hfoldedRight : FoldedSide setting right)
    (hcomma : operator = .isIn ∨ operator = .notIn → (right.items setting).length = 1 →
      ∀ name ∈ others, setting.resolve name = none → ',' ∉ name.toList) :
    Stays setting.resolve (names ++ others) (comparison setting leftPart operator right)
      (comparison (setting.against more) leftLater operator rightLater) := by
  have hl := hleft.grid hshort hfoldedLeft
  have hitems := hright.items hshort hfoldedRight
  have hfolded := hshort ▸ folded_grid hfoldedLeft
  have hfoldedItems := hshort ▸ folded_side_items hfoldedRight
  cases operator with
  | isIn => exact stays_membership hshort false hl hfolded hfoldedItems hitems (hcomma (.inl rfl))
  | notIn => exact stays_membership hshort true hl hfolded hfoldedItems hitems (hcomma (.inr rfl))
  | between | like | notLike => exact stays_of_not rfl
  | eq | ne | gt | ge | lt | le =>
    cases hright with
    | single hpart =>
      have hr := hpart.grid hshort hfoldedRight
      exact stays_relational (hleft.mono (List.subset_append_left _ _)) (hpart.mono (List.subset_append_right _ _))
        (hl.mono (List.subset_append_left _ _)) (hr.mono (List.subset_append_right _ _))
    | list | range => exact stays_of_not rfl

end

end Conversion

/-! ### Trees -/

/-- What a source of values has to know for a decision about a node to be final: each placeholder in the default of
    `ISNULL` where the first argument is null, and each one in a lone item after `IN` that has a comma in its name. -/
def Node.Steady (resolve : Resolver) : Node → Prop
  | .isNull (.placeholder name :: default :: _) =>
    resolve name = some .null → ∀ other ∈ default.placeholders, resolve other ≠ none
  | .comparison _ operator (.single item) | .comparison _ operator (.list [item]) =>
    operator = .isIn ∨ operator = .notIn → ∀ name ∈ item.placeholders, resolve name = none → ',' ∉ name.toList
  | _ => True

namespace Conversion

variable {setting : Setting} {more : Resolver}

/-- The default of `ISNULL` over a placeholder that is null is the same against both sources. -/
theorem default_against {arguments : List Node} {name : String}
    (hmore : ∀ name ∈ Node.listPlaceholders arguments, ∀ v, setting.resolve name = some v → more name = some v)
    (hsteady : (Node.isNull arguments).Steady setting.resolve)
    (hfirst : (parts setting arguments).head? = some (.placeholder name)) (hnull : setting.resolve name = some .null) :
    (parts (setting.against more) arguments).tail.head?.map (·.grid (setting.against more)) =
      (parts setting arguments).tail.head?.map (·.grid setting) := by
  match arguments with
  | [] => rfl
  | [first] => rfl
  | first :: default :: rest =>
    obtain rfl := eq_placeholder_of_part (Option.some.inj hfirst)
    have hknown : ∀ other ∈ default.placeholders, more other = setting.resolve other := by
      intro other hother
      obtain ⟨v, hv⟩ := Option.ne_none_iff_exists'.mp (hsteady hnull other hother)
      have hmem : other ∈ Node.listPlaceholders (.placeholder name :: default :: rest) := by
        simp [Node.listPlaceholders, hother]
      rw [hv, hmore other hmem v hv]
    exact congrArg some (grid_node_against hknown)

theorem not_comma_of_steady {subject : Node} {operator : Comparison} {operand : Operand}
    (h : (Node.comparison subject operator operand).Steady setting.resolve) (hop : operator = .isIn ∨ operator = .notIn)
    (hlength : ((side setting operand).items setting).length = 1) :
    ∀ name ∈ Node.operandPlaceholders operand, setting.resolve name = none → ',' ∉ name.toList := by
  match operand with
  | .single item => exact h hop
  | .list [item] =>
    intro name hname
    rw [Node.operandPlaceholders, Node.listPlaceholders, Node.listPlaceholders, List.append_nil] at hname
    exact h hop name hname
  | .list [] => cases hlength
  | .list (_ :: _ :: _) => cases hlength
  | .range _ _ => cases hlength

mutual

theorem stays_part (hshort : setting.shortCircuit = true) : ∀ node : Node,
    (∀ name ∈ node.placeholders, ∀ v, setting.resolve name = some v → more name = some v) →
    (∀ part ∈ node.parts, part.Steady setting.resolve) →
    PartStays setting more node.placeholders (part setting node) (part (setting.against more) node)
  | .logical connective left right, hmore, hsteady => by
    obtain ⟨hmoreLeft, hmoreRight⟩ := List.forall_mem_append.mp hmore
    obtain ⟨hsteadyLeft, hsteadyRight⟩ := List.forall_mem_append.mp (List.forall_mem_cons.mp hsteady).2
    exact stays_joined hshort connective (stays_part hshort left hmoreLeft hsteadyLeft)
      (stays_part hshort right hmoreRight hsteadyRight) (foldedPart_part left) (foldedPart_part right)
  | .comparison subject operator operand, hmore, hsteady => by
    obtain ⟨hmoreLeft, hmoreRight⟩ := List.forall_mem_append.mp hmore
    obtain ⟨hnode, hbelow⟩ := List.forall_mem_cons.mp hsteady
    obtain ⟨hsteadyLeft, hsteadyRight⟩ := List.forall_mem_append.mp hbelow
    exact .other (stays_comparison hshort (stays_part hshort subject hmoreLeft hsteadyLeft)
      (stays_side hshort operand hmoreRight hsteadyRight) (foldedPart_part subject) (foldedSide_side operand)
      fun hop hlength => not_comma_of_steady hnode hop hlength)
  | .isNull arguments, hmore, hsteady => by
    obtain ⟨hnode, hbelow⟩ := List.forall_mem_cons.mp hsteady
    exact stays_coalesced hshort (stays_parts hshort arguments hmore hbelow) (foldedPart_parts arguments)
      fun name hfirst hnull => default_against hmore hnode hfirst hnull
  | .field name, _, _ => .field name
  | .literal value, _, _ => .literal value
  | .placeholder name, hmore, _ => .placeholder (by simp [Node.placeholders]) (hmore name (by simp [Node.placeholders]))

theorem stays_side (hshort : setting.shortCircuit = true) : ∀ operand : Operand,
    (∀ name ∈ Node.operandPlaceholders operand, ∀ v, setting.resolve name = some v → more name = some v) →
    (∀ part ∈ Node.operandParts operand, part.Steady setting.resolve) →
    SideStays setting more (Node.operandPlaceholders operand) (side setting operand)
      (side (setting.against more) operand)
  | .single node, hmore, hsteady => .single (stays_part hshort node hmore hsteady)
  | .list nodes, hmore, hsteady => .list (stays_parts hshort nodes hmore hsteady)
  | .range low high, hmore, hsteady => by
    obtain ⟨hmoreLow, hmoreHigh⟩ := List.forall_mem_append.mp hmore
    obtain ⟨hsteadyLow, hsteadyHigh⟩ := List.forall_mem_append.mp hsteady
    exact .range ((stays_part hshort low hmoreLow hsteadyLow).mono (List.subset_append_left _ _))
      ((stays_part hshort high hmoreHigh hsteadyHigh).mono (List.subset_append_right _ _))

theorem stays_parts (hshort : setting.shortCircuit = true) : ∀ nodes : List Node,
    (∀ name ∈ Node.listPlaceholders nodes, ∀ v, setting.resolve name = some v → more name = some v) →
    (∀ part ∈ Node.listParts nodes, part.Steady setting.resolve) →
    List.Forall₂ (PartStays setting more (Node.listPlaceholders nodes)) (parts setting nodes)
      (parts (setting.against more) nodes)
  | [], _, _ => .nil
  | node :: rest, hmore, hsteady => by
    obtain ⟨hmoreNode, hmoreRest⟩ := List.forall_mem_append.mp hmore
    obtain ⟨hsteadyNode, hsteadyRest⟩ := List.forall_mem_append.mp hsteady
    have hnode := stays_part hshort node hmoreNode hsteadyNode
    have hrest := stays_parts hshort rest hmoreRest hsteadyRest
    exact .cons (hnode.mono (List.subset_append_left _ _))
      (hrest.imp fun _ _ h => h.mono (List.subset_append_right _ _))

end

end Conversion

open Conversion in
/-- A decision is final. Where a tree is converted into a truth value, it is converted into the same one against every
    source that knows the same values and more, if every node is steady. -/
theorem Node.bool_convertWith_of_more {node : Node} {options : ConvertOptions} {resolve more : Resolver} {b : Bool}
    (hshort : options.shortCircuit = true)
    (hmore : ∀ name ∈ node.placeholders, ∀ v, resolve name = some v → more name = some v)
    (hsteady : ∀ part ∈ node.parts, part.Steady resolve) (h : node.convertWith options resolve = .bool b) :
    node.convertWith options more = .bool b := by
  have hpart := @stays_part ⟨options.shortCircuit, options.expandIn, resolve⟩ more hshort node hmore hsteady
  have hgrid := hpart.grid hshort (foldedPart_part node)
  have hbool : (part ⟨options.shortCircuit, options.expandIn, resolve⟩ node).grid
      ⟨options.shortCircuit, options.expandIn, resolve⟩ = .bool b := h
  rw [hbool] at hgrid
  exact hgrid.bool

/-! ### Data -/

/-- Further entities take no value away. -/
theorem DataMap.resolve_append {entities others : Table (List Record)} {policy : MissingAttribute} {name : String}
    {v : Value} (h : (DataMap.mk entities).resolve policy name = some v) :
    (DataMap.mk (entities ++ others)).resolve policy name = some v := by
  have hrecord (entity : String) (record : Record) (hknown : (DataMap.mk entities).record? entity = some record) :
      (DataMap.mk (entities ++ others)).record? entity = some record := by
    obtain ⟨records, hrecords, hfirst⟩ := Option.bind_eq_some_iff.mp hknown
    have hlookup : (entities ++ others).lookup entity = some records := by
      rw [List.lookup_append, show entities.lookup entity = some records from hrecords]
      rfl
    exact Option.bind_eq_some_iff.mpr ⟨records, hlookup, hfirst⟩
  unfold resolve at h ⊢
  split at h
  · next entity property hname =>
    split at h
    · cases h
    · next record hknown => simpa [hrecord entity record hknown] using h
  · obtain ⟨record, hknown, hmissing⟩ := Option.bind_eq_some_iff.mp h
    exact Option.bind_eq_some_iff.mpr ⟨record, hrecord name record hknown, hmissing⟩

/-- A map of data in which an attribute is null. -/
def scarceData : Table (List Record) := [("A", [[("B", .null)]])]

/-- Data for further placeholders. -/
def suppliedData : Table (List Record) := [("C", [[("D", .string "x")]]), ("a,5,b", [[("v", .int 7)]])]

/-- The tree of `ISNULL({A.B}, {C.D}) = 'x'`. -/
def defaultTree : Node := .compare (.isNull [.placeholder "A.B", .placeholder "C.D"]) .eq (.literal (.string "x"))

/-- The tree of `'5' IN ({a,5,b})`. -/
def loneItemTree : Node := .comparison (.literal (.string "5")) .isIn (.list [.placeholder "a,5,b"])

/-- The tokens of `ISNULL({A.B}, {C.D}) = 'x'`. -/
def defaultTokens : List Token := [⟨.function, "ISNULL", 0⟩, ⟨.paren, "(", 6⟩, ⟨.placeholder, "A.B", 7⟩,
  ⟨.comma, ",", 12⟩, ⟨.placeholder, "C.D", 14⟩, ⟨.paren, ")", 19⟩, ⟨.operator, "=", 21⟩, ⟨.string, "x", 23⟩]

/-- The tokens of `'5' IN ({a,5,b})`. -/
def loneItemTokens : List Token := [⟨.string, "5", 0⟩, ⟨.operator, "IN", 4⟩, ⟨.paren, "(", 7⟩,
  ⟨.placeholder, "a,5,b", 8⟩, ⟨.paren, ")", 15⟩]

/-- The tree of `ISNULL({A.B}, {C.D}) = 'x' OR code IN ({E.F})`. -/
def steadyTree : Node := .logical .or defaultTree (.comparison (.field "code") .isIn (.list [.placeholder "E.F"]))

/-- A source that knows what the tree needs for its decision. -/
def enough : Resolver := (DataMap.mk (scarceData ++ suppliedData)).resolve .firstProperty

/-- A source that knows the rest as well. -/
def everything : Resolver :=
  (DataMap.mk (scarceData ++ suppliedData ++ [("E", [[("F", .int 1)]])])).resolve .firstProperty

theorem Node.bool_convertWith_of_more_steadyTree :
    (∀ name ∈ steadyTree.placeholders, ∀ v, enough name = some v → everything name = some v) ∧
      (∀ part ∈ steadyTree.parts, part.Steady enough) ∧ steadyTree.convertWith {} enough = .bool true ∧
      steadyTree.convertWith {} everything = .bool true := by
  have hmore : ∀ name ∈ steadyTree.placeholders, ∀ v, enough name = some v → everything name = some v :=
    fun name _ v hv => DataMap.resolve_append hv
  have hdefault : enough "C.D" = some (.string "x") := by rfl
  have hsteady : ∀ part ∈ steadyTree.parts, part.Steady enough := by
    simp [steadyTree, defaultTree, Node.compare, Node.parts, Node.operandParts, Node.listParts, Node.Steady,
      Node.placeholders, hdefault]
  have hbefore : steadyTree.convertWith {} enough = .bool true := by rfl
  exact ⟨hmore, hsteady, hbefore, Node.bool_convertWith_of_more rfl hmore hsteady hbefore⟩

/-- Decisions that more values turn around: the spelling of the default is not equal to the literal, but its value is; a
    piece of the spelling of the item is equal to the literal, but its value is not. -/
theorem Node.convert_turned :
    (∀ name v, (DataMap.mk scarceData).resolve .firstProperty name = some v →
      (DataMap.mk (scarceData ++ suppliedData)).resolve .firstProperty name = some v) ∧
    ParsedFilter.ofText 256 [] "ISNULL({A.B}, {C.D}) = 'x'" = .ok (some ⟨defaultTree, ["A.B", "C.D"]⟩) ∧
    defaultTree.convert {} ⟨scarceData⟩ = .bool false ∧
    defaultTree.convert {} ⟨scarceData ++ suppliedData⟩ = .bool true ∧
    ParsedFilter.ofText 256 [] "'5' IN ({a,5,b})" = .ok (some ⟨loneItemTree, ["a,5,b"]⟩) ∧
    loneItemTree.convert {} ⟨scarceData⟩ = .bool true ∧
    loneItemTree.convert {} ⟨scarceData ++ suppliedData⟩ = .bool false := by
  have hbefore : loneItemTree.convert {} ⟨scarceData⟩ = .bool true := Conversion.bool?_eq_some (by decide +kernel)
  have hafter : loneItemTree.convert {} ⟨scarceData ++ suppliedData⟩ = .bool false :=
    Conversion.bool?_eq_some (by decide +kernel)
  refine ⟨fun name v hv => DataMap.resolve_append hv, ?_, by rfl, by rfl, ?_, hbefore, hafter⟩
  · exact ParsedFilter.ofText_eq_some.mpr ⟨by rfl, defaultTokens, by rfl, by rfl⟩
  · exact ParsedFilter.ofText_eq_some.mpr ⟨by rfl, loneItemTokens, by rfl, by rfl⟩

end GridFilter
