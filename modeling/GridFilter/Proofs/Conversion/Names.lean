import GridFilter.Filter
import GridFilter.Proofs.Conversion.Cases
import GridFilter.Proofs.Parser.Names

/-! A conversion takes from its source of values those of the placeholders of the tree, and nothing else. Where two
    sources agree on them, the tree is converted alike against both. -/

namespace GridFilter

namespace Conversion

/-- The setting with another source of values. -/
def Setting.against (setting : Setting) (resolve : Resolver) : Setting := { setting with resolve := resolve }

variable {setting : Setting} {resolve : Resolver}

/-- What a part may still ask of the source of values, both sources answer alike. -/
def Agrees (setting : Setting) (resolve : Resolver) : Part → Prop
  | .placeholder name | .placeholderOr name _ => resolve name = setting.resolve name
  | .chain _ _ | .literal _ | .field _ | .fieldOr _ _ | .other _ => True

/-! ### Parts -/

theorem grid_against {part : Part} (h : Agrees setting resolve part) :
    part.grid (setting.against resolve) = part.grid setting := by
  cases part with
  | placeholder name | placeholderOr name _ =>
    have hname : resolve name = setting.resolve name := h
    simp only [Part.grid, Setting.against, Resolver.valueOf, hname]
  | chain | literal | field | fieldOr | other => rfl

theorem grids_against {parts : List Part} (h : ∀ part ∈ parts, Agrees setting resolve part) :
    parts.map (·.grid (setting.against resolve)) = parts.map (·.grid setting) :=
  List.map_congr_left fun part hpart => grid_against (h part hpart)

theorem operands_against {connective : Connective} {part : Part} (h : Agrees setting resolve part) :
    part.operands (setting.against resolve) connective = part.operands setting connective := by
  unfold Part.operands
  rw [grid_against h]

theorem joined_against {connective : Connective} {left right : Part} (hleft : Agrees setting resolve left)
    (hright : Agrees setting resolve right) :
    joined (setting.against resolve) connective left right = joined setting connective left right := by
  rw [joined, joined, operands_against hleft, grid_against hright]

theorem coalesced_against {arguments : List Part} (h : ∀ part ∈ arguments, Agrees setting resolve part) :
    coalesced (setting.against resolve) arguments = coalesced setting arguments ∧
      Agrees setting resolve (coalesced setting arguments) := by
  match arguments with
  | [] => exact ⟨rfl, trivial⟩
  | [first] =>
    have hgrid := grid_against (h first (by simp))
    cases first with
    | placeholder name => exact ⟨rfl, h (.placeholder name) (by simp)⟩
    | _ => exact ⟨congrArg Part.other hgrid, trivial⟩
  | first :: default :: others =>
    have hgrid := grid_against (h first (by simp))
    have hdefault := grid_against (h default (by simp))
    cases first with
    | field name => exact ⟨congrArg (Part.fieldOr name) hdefault, trivial⟩
    | placeholder name =>
      exact ⟨congrArg (fun grid => Part.placeholderOr name (some grid)) hdefault, h (.placeholder name) (by simp)⟩
    | _ => exact ⟨congrArg Part.other hgrid, trivial⟩

/-! ### Comparisons -/

theorem decideCoalesced?_against {call other : Part} {operator : Comparison} (h : Agrees setting resolve call) :
    decideCoalesced? (setting.against resolve) call operator other = decideCoalesced? setting call operator other := by
  cases call with
  | placeholderOr name default =>
    have hname : resolve name = setting.resolve name := h
    have hvalue : coalescedValue? (setting.against resolve) name default = coalescedValue? setting name default := by
      simp only [coalescedValue?, Setting.against, hname]
    cases other with
    | literal value => simp only [decideCoalesced?, hvalue]
    | _ => rfl
  | _ => rfl

theorem relational_against {left right : Part} {operator : Comparison} (hleft : Agrees setting resolve left)
    (hright : Agrees setting resolve right) :
    relational (setting.against resolve) left operator right = relational setting left operator right := by
  have hundecided : undecidedRelational (setting.against resolve) left operator right =
      undecidedRelational setting left operator right := by
    unfold undecidedRelational
    rw [grid_against hleft, grid_against hright]
    rfl
  unfold relational
  rw [decideCoalesced?_against hleft, decideCoalesced?_against hright, hundecided]
  rfl

/-- Both sources agree on every part of a right side. -/
def SideAgrees (setting : Setting) (resolve : Resolver) : Side → Prop
  | .single part => Agrees setting resolve part
  | .list parts => ∀ part ∈ parts, Agrees setting resolve part
  | .range low high => Agrees setting resolve low ∧ Agrees setting resolve high

theorem items_against {right : Side} (h : SideAgrees setting resolve right) :
    right.items (setting.against resolve) = right.items setting := by
  cases right with
  | single part => exact congrArg (fun grid => [grid]) (grid_against h)
  | list parts => exact grids_against h
  | range low high => rw [Side.items, Side.items, grid_against h.1, grid_against h.2]

theorem side_grid_against {right : Side} (h : SideAgrees setting resolve right) :
    right.grid (setting.against resolve) = right.grid setting := by
  have hitems := items_against h
  cases right with
  | single part => exact grid_against h
  | list parts => exact congrArg Grid.list hitems
  | range low high => exact congrArg Grid.list hitems

theorem comparison_against {left : Part} {operator : Comparison} {right : Side} (hleft : Agrees setting resolve left)
    (hright : SideAgrees setting resolve right) :
    comparison (setting.against resolve) left operator right = comparison setting left operator right := by
  have hplain : plainCondition (setting.against resolve) left operator right =
      plainCondition setting left operator right := by
    rw [plainCondition, plainCondition, grid_against hleft, side_grid_against hright]
  cases operator with
  | isIn | notIn =>
    simp only [comparison, grid_against hleft, items_against hright]
    rfl
  | between | like | notLike => exact hplain
  | eq | ne | gt | ge | lt | le =>
    cases right with
    | single part => exact relational_against hleft hright
    | list | range => exact hplain

/-! ### Trees -/

mutual

/-- A tree whose placeholders both sources answer alike is the same part against both. -/
theorem part_against : ∀ {node : Node}, (∀ name ∈ node.placeholders, resolve name = setting.resolve name) →
    part (setting.against resolve) node = part setting node ∧ Agrees setting resolve (part setting node)
  | .logical connective left right, h => by
    obtain ⟨hl, hr⟩ := List.forall_mem_append.mp h
    obtain ⟨hleft, hleft'⟩ := part_against hl
    obtain ⟨hright, hright'⟩ := part_against hr
    exact ⟨by rw [part, part, hleft, hright, joined_against hleft' hright'], trivial⟩
  | .comparison subject operator operand, h => by
    obtain ⟨hl, hr⟩ := List.forall_mem_append.mp h
    obtain ⟨hsubject, hsubject'⟩ := part_against hl
    obtain ⟨hoperand, hoperand'⟩ := side_against hr
    exact ⟨by rw [part, part, hsubject, hoperand, comparison_against hsubject' hoperand'], trivial⟩
  | .isNull arguments, h => by
    obtain ⟨harguments, harguments'⟩ := parts_against h
    rw [part, part, harguments]
    exact coalesced_against harguments'
  | .field _, _ | .literal _, _ => ⟨rfl, trivial⟩
  | .placeholder _, h => ⟨rfl, h _ (by simp [Node.placeholders])⟩

theorem side_against : ∀ {operand : Operand},
    (∀ name ∈ Node.operandPlaceholders operand, resolve name = setting.resolve name) →
    side (setting.against resolve) operand = side setting operand ∧ SideAgrees setting resolve (side setting operand)
  | .single node, h => by
    have h' : ∀ name ∈ node.placeholders, resolve name = setting.resolve name := h
    obtain ⟨hnode, hnode'⟩ := part_against h'
    exact ⟨by rw [side, side, hnode], hnode'⟩
  | .list nodes, h => by
    have h' : ∀ name ∈ Node.listPlaceholders nodes, resolve name = setting.resolve name := h
    obtain ⟨hnodes, hnodes'⟩ := parts_against h'
    exact ⟨by rw [side, side, hnodes], hnodes'⟩
  | .range low high, h => by
    obtain ⟨hl, hh⟩ := List.forall_mem_append.mp h
    obtain ⟨hlow, hlow'⟩ := part_against hl
    obtain ⟨hhigh, hhigh'⟩ := part_against hh
    exact ⟨by rw [side, side, hlow, hhigh], hlow', hhigh'⟩

theorem parts_against : ∀ {nodes : List Node},
    (∀ name ∈ Node.listPlaceholders nodes, resolve name = setting.resolve name) →
    parts (setting.against resolve) nodes = parts setting nodes ∧
      ∀ part ∈ parts setting nodes, Agrees setting resolve part
  | [], _ => ⟨rfl, nofun⟩
  | node :: rest, h => by
    obtain ⟨hn, hr⟩ := List.forall_mem_append.mp h
    obtain ⟨hnode, hnode'⟩ := part_against hn
    obtain ⟨hrest, hrest'⟩ := parts_against hr
    exact ⟨by rw [parts, parts, hnode, hrest], List.forall_mem_cons.mpr ⟨hnode', hrest'⟩⟩

end

theorem grid_node_against {node : Node} (h : ∀ name ∈ node.placeholders, resolve name = setting.resolve name) :
    grid (setting.against resolve) node = grid setting node := by
  obtain ⟨hnode, hagrees⟩ := part_against h
  rw [grid, grid, hnode, grid_against hagrees]

end Conversion

/-! ### Filters -/

/-- A text that spells a filter is no whole query, and has tokens that spell it. -/
theorem ParsedFilter.ofText_eq_some {maxDepth : Nat} {known : List String} {text : String} {parsed : ParsedFilter} :
    ofText maxDepth known text = .ok (some parsed) ↔ WholeQuery.isWholeQuery text = false ∧
      ∃ tokens, Token.ofText text = .ok tokens ∧ ofTokens maxDepth known tokens = .ok parsed := by
  unfold ofText
  constructor
  · intro h
    split at h
    · cases h
    · next hwhole =>
      refine ⟨by simpa using hwhole, ?_⟩
      split at h
      · cases h
      · next tokens htokens =>
        refine ⟨tokens, htokens, ?_⟩
        cases hparsed : ofTokens maxDepth known tokens with
        | error e =>
          rw [hparsed] at h
          cases h
        | ok other =>
          rw [hparsed] at h
          cases h
          rfl
  · rintro ⟨hwhole, tokens, htokens, hparsed⟩
    rw [hwhole, htokens]
    simp only [Bool.false_eq_true, if_false, hparsed]
    rfl

namespace CompiledFilter

/-- A filter names every placeholder of its tree. -/
theorem mem_names {text : String} {options : FilterOptions} {filter : CompiledFilter} {node : Node} {name : String}
    (h : ofText text options = .ok filter) (hnode : filter.ast = some node) (hname : name ∈ node.placeholders) :
    name ∈ filter.names := by
  unfold ofText at h
  split at h
  · cases h
    cases hnode
  · dsimp only at h
    split at h
    · cases h
    · cases h
      cases hnode
    · next parsed hparsed =>
      cases h
      cases hnode
      obtain ⟨-, tokens, -, htokens⟩ := ParsedFilter.ofText_eq_some.mp hparsed
      rw [ParsedFilter.names_of_ofTokens htokens, Text.distinct_eq_eraseDups, List.mem_eraseDups]
      exact List.mem_append_right _ hname

/-- The names of a filter are all that a caller has to supply. Where two sources of values agree on each of them, the
    filter is converted alike against both, whatever else the sources hold; two data maps are such sources, under the
    policy of the filter for missing attributes. -/
theorem convertWith_congr {text : String} {options : FilterOptions} {filter : CompiledFilter}
    (h : ofText text options = .ok filter) :
    (∀ resolve other : Resolver, (∀ name ∈ filter.names, resolve name = other name) →
        filter.convertWith resolve = filter.convertWith other) ∧
      ∀ data other : DataMap,
        (∀ name ∈ filter.names, data.resolve filter.options.missingAttribute name =
          other.resolve filter.options.missingAttribute name) → filter.convert data = filter.convert other := by
  have hwith (resolve other : Resolver) (hagree : ∀ name ∈ filter.names, resolve name = other name) :
      filter.convertWith resolve = filter.convertWith other := by
    unfold convertWith
    cases hnode : filter.ast with
    | none => rfl
    | some node =>
      have hgrid : node.convertWith filter.options resolve = node.convertWith filter.options other :=
        @Conversion.grid_node_against ⟨filter.options.shortCircuit, filter.options.expandIn, other⟩ resolve node
          fun name hname => hagree name (mem_names h hnode hname)
      simp only [Option.bind_some, hgrid]
  exact ⟨hwith, fun data other hagree => hwith _ _ hagree⟩

/-- A filter in the positional dialect with a placeholder beside an operator, in a list, and for the default of
    `ISNULL`. -/
def restockText : String := "ISNULL({0}, {1}) > 5 OR code IN ({2}, 'x') | [Stock.Least, Stock.Usual] | [Code.Main]"

/-- Its tree. -/
def restockTree : Node :=
  .logical .or
    (.compare (.isNull [.placeholder "Stock.Least", .placeholder "Stock.Usual"]) .gt (.literal (.int 5)))
    (.comparison (.field "code") .isIn (.list [.placeholder "Code.Main", .literal (.string "x")]))

/-- That filter as it is read. -/
def restock : CompiledFilter where
  normalized := "ISNULL({Stock.Least}, {Stock.Usual}) > 5 OR code IN ({Code.Main}, 'x')"
  names := ["Stock.Least", "Stock.Usual", "Code.Main"]
  ast := some restockTree
  options := {}

/-- Its tokens in the inline dialect. -/
def restockTokens : List Token := [⟨.function, "ISNULL", 0⟩, ⟨.paren, "(", 6⟩, ⟨.placeholder, "Stock.Least", 7⟩,
  ⟨.comma, ",", 20⟩, ⟨.placeholder, "Stock.Usual", 22⟩, ⟨.paren, ")", 35⟩, ⟨.operator, ">", 37⟩, ⟨.number, "5", 39⟩,
  ⟨.operator, "OR", 41⟩, ⟨.identifier, "code", 44⟩, ⟨.operator, "IN", 49⟩, ⟨.paren, "(", 52⟩,
  ⟨.placeholder, "Code.Main", 53⟩, ⟨.comma, ",", 64⟩, ⟨.string, "x", 66⟩, ⟨.paren, ")", 69⟩]

/-- A map with no more than the filter names. -/
def needed : DataMap :=
  ⟨[("Stock", [[("Least", .null), ("Usual", .int 2)]]), ("Code", [[("Main", .string "a")]])]⟩

/-- A map with more attributes, records and entities. -/
def plenty : DataMap :=
  ⟨[("Order", [[("Code", .int 7)]]), ("Code", [[("Other", .int 1), ("Main", .string "a")], []]),
    ("Stock", [[("Usual", .int 2), ("Least", .null), ("Most", .int 9)]])]⟩

theorem convertWith_congr_restock : ofText restockText {} = .ok restock ∧
    (∀ name ∈ restock.names, needed.resolve restock.options.missingAttribute name =
      plenty.resolve restock.options.missingAttribute name) ∧ restock.convert needed = restock.convert plenty := by
  have hblank : Text.isBlankText restockText = false := by rfl
  have hcanonical : Dialect.canonicalize restockText = ⟨restock.normalized, restock.names⟩ := by decide +kernel
  have htokens : Token.ofText restock.normalized = .ok restockTokens := by rfl
  have hparsed : ParsedFilter.ofTokens 256 restock.names restockTokens = .ok ⟨restockTree, restock.names⟩ := by
    rw [ParsedFilter.ofTokens_eq]
    rfl
  have hread : ofText restockText {} = .ok restock := by
    have htree := ParsedFilter.ofText_eq_some.mpr ⟨by rfl, restockTokens, htokens, hparsed⟩
    rw [ofText, hblank, hcanonical]
    simp only [Bool.false_eq_true, if_false, Option.getD_none, ParsedFilter.defaultMaxDepth, htree]
    rfl
  have hagree : ∀ name ∈ restock.names, needed.resolve restock.options.missingAttribute name =
      plenty.resolve restock.options.missingAttribute name := by
    intro name hname
    simp only [restock, List.mem_cons, List.not_mem_nil, or_false] at hname
    rcases hname with rfl | rfl | rfl <;> rfl
  exact ⟨hread, hagree, (convertWith_congr hread).2 needed plenty hagree⟩

end CompiledFilter

end GridFilter
