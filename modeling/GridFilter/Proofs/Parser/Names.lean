import GridFilter.Proofs.Parser.Gathered
import GridFilter.Proofs.Parser.Sound
import GridFilter.Proofs.Table

/-! The names of a filter and their order. The cursor notes them token by token. Every token is part of the tree once, and
    a comparison that changes its sides moves a field, so a tree has the placeholders of its tokens in the same order. -/

namespace GridFilter

/-! ### Placeholders among nodes -/

namespace Node

/-- The name of a placeholder. -/
def placeholder? : Node → Option String
  | .placeholder name => some name
  | _ => none

mutual

theorem placeholders_eq_parts : ∀ node : Node, node.placeholders = node.parts.filterMap placeholder?
  | .logical _ left right => by
    rw [placeholders, parts, List.filterMap_cons_none rfl, List.filterMap_append, placeholders_eq_parts left,
      placeholders_eq_parts right]
  | .comparison subject _ operand => by
    rw [placeholders, parts, List.filterMap_cons_none rfl, List.filterMap_append, placeholders_eq_parts subject,
      operandPlaceholders_eq_parts operand]
  | .isNull arguments => by
    rw [placeholders, parts, List.filterMap_cons_none rfl, listPlaceholders_eq_parts arguments]
  | .field _ | .literal _ | .placeholder _ => by rw [placeholders, parts]; rfl

theorem operandPlaceholders_eq_parts : ∀ operand : Operand,
    operandPlaceholders operand = (operandParts operand).filterMap placeholder?
  | .single node => placeholders_eq_parts node
  | .list nodes => listPlaceholders_eq_parts nodes
  | .range low high => by
    rw [operandPlaceholders, operandParts, List.filterMap_append, placeholders_eq_parts low, placeholders_eq_parts high]

theorem listPlaceholders_eq_parts : ∀ nodes : List Node,
    listPlaceholders nodes = (listParts nodes).filterMap placeholder?
  | [] => rfl
  | node :: rest => by
    rw [listPlaceholders, listParts, List.filterMap_append, placeholders_eq_parts node, listPlaceholders_eq_parts rest]

end

end Node

/-- Names are gathered from the placeholders of a tree, and from those among tokens. -/
theorem Grammar.gathers_placeholders : Gathers Node.placeholder? Token.placeholder? where
  spelled h := by cases h <;> simp [Node.placeholder?, Token.placeholder?, *]
  mark h := Token.placeholder?_of_kind rfl fun hkind => absurd (hkind ▸ h) (by decide)
  other {node} h := by
    cases node with
    | placeholder name => cases h
    | _ => rfl

/-- A tree has the placeholders of its tokens, in the same order. -/
theorem Grammar.Expression.placeholders_eq {tokens : List Token} {node : Node} (h : Expression tokens node) :
    node.placeholders = Token.placeholders tokens := by
  rw [Node.placeholders_eq_parts, Token.placeholders]
  exact gathers_placeholders.compositional.expression h

/-! ### Names of a filter -/

theorem Token.foldl_noted_distinct (known : List String) (tokens : List Token) :
    tokens.foldl noted (Text.distinct known) = Text.distinct (known ++ placeholders tokens) := by
  rw [foldl_noted, Text.distinct, Text.distinct, List.foldl_append]

theorem Text.distinct_eq_eraseDups (names : List String) : distinct names = names.eraseDups := by
  induction names using List.reverseRecOn with
  | nil => rfl
  | append_singleton names name ih =>
    rw [distinct] at ih
    rw [distinct, List.foldl_append, ih, Table.eraseDups_concat]
    rfl

namespace ParsedFilter
variable {maxDepth : Nat} {known : List String} {tokens : List Token} {parsed : ParsedFilter}

/-- The names of a filter are those that the cursor notes while it goes over the tokens, all of which it takes. -/
theorem names_eq_noted (h : ofTokens maxDepth known tokens = .ok parsed) :
    parsed.names = tokens.foldl Token.noted (Text.distinct known) := by
  rw [ofTokens_eq] at h
  split at h
  · cases h
  · obtain ⟨⟨ast, rest⟩, -, hrest⟩ := Parser.bind_eq_ok.mp h
    cases rest with
    | nil =>
      cases hrest
      rfl
    | cons token tail => cases hrest

theorem placeholders_of_ofTokens (h : ofTokens maxDepth known tokens = .ok parsed) :
    parsed.ast.placeholders = Token.placeholders tokens :=
  (bounded_of_ofTokens h).plain.placeholders_eq

/-- Every placeholder of the tree has been noted, and nothing else has. -/
theorem names_of_ofTokens (h : ofTokens maxDepth known tokens = .ok parsed) :
    parsed.names = Text.distinct (known ++ parsed.ast.placeholders) := by
  rw [names_eq_noted h, Token.foldl_noted_distinct, placeholders_of_ofTokens h]

/-- The names of a filter are those known before and those of the placeholders, each at its first place, whether the
    placeholders are looked up in the tree or among the tokens. -/
theorem names_eq_eraseDups (h : ofTokens maxDepth known tokens = .ok parsed) :
    parsed.names = (known ++ parsed.ast.placeholders).eraseDups ∧
      parsed.names = (known ++ Token.placeholders tokens).eraseDups := by
  have hnames : parsed.names = (known ++ parsed.ast.placeholders).eraseDups := by
    rw [names_of_ofTokens h, Text.distinct_eq_eraseDups]
  exact ⟨hnames, placeholders_of_ofTokens h ▸ hnames⟩

/-- `{Order.Least} < Qty AND Code IN ({Code.Main}, {Order.Least}) OR ISNULL({Stock.Usual}, {Code.Main}) = 1`. -/
def reorderTokens : List Token := [⟨.placeholder, "Order.Least", 0⟩, ⟨.operator, "<", 14⟩, ⟨.identifier, "Qty", 16⟩,
  ⟨.operator, "AND", 20⟩, ⟨.identifier, "Code", 24⟩, ⟨.operator, "IN", 29⟩, ⟨.paren, "(", 32⟩,
  ⟨.placeholder, "Code.Main", 33⟩, ⟨.comma, ",", 44⟩, ⟨.placeholder, "Order.Least", 46⟩, ⟨.paren, ")", 59⟩,
  ⟨.operator, "OR", 61⟩, ⟨.function, "ISNULL", 64⟩, ⟨.paren, "(", 70⟩, ⟨.placeholder, "Stock.Usual", 71⟩,
  ⟨.comma, ",", 84⟩, ⟨.placeholder, "Code.Main", 86⟩, ⟨.paren, ")", 97⟩, ⟨.operator, "=", 99⟩, ⟨.number, "1", 101⟩]

/-- Its tree, where the field stands first. -/
def reorderTree : Node :=
  .logical .or
    (.logical .and (.compare (.field "Qty") .gt (.placeholder "Order.Least"))
      (.comparison (.field "Code") .isIn (.list [.placeholder "Code.Main", .placeholder "Order.Least"])))
    (.compare (.isNull [.placeholder "Stock.Usual", .placeholder "Code.Main"]) .eq (.literal (.int 1)))

theorem names_eq_eraseDups_reorder :
    ofTokens 256 ["Stock.Usual", "Site.Id", "Stock.Usual"] reorderTokens =
        .ok ⟨reorderTree, ["Stock.Usual", "Site.Id", "Order.Least", "Code.Main"]⟩ ∧
      ["Stock.Usual", "Site.Id", "Order.Least", "Code.Main"] =
        (["Stock.Usual", "Site.Id", "Stock.Usual"] ++ reorderTree.placeholders).eraseDups ∧
      ["Stock.Usual", "Site.Id", "Order.Least", "Code.Main"] =
        (["Stock.Usual", "Site.Id", "Stock.Usual"] ++ Token.placeholders reorderTokens).eraseDups := by
  have hparsed : ofTokens 256 ["Stock.Usual", "Site.Id", "Stock.Usual"] reorderTokens =
      .ok ⟨reorderTree, ["Stock.Usual", "Site.Id", "Order.Least", "Code.Main"]⟩ := by
    rw [ofTokens_eq]
    rfl
  exact ⟨hparsed, names_eq_eraseDups hparsed⟩

end ParsedFilter

end GridFilter
