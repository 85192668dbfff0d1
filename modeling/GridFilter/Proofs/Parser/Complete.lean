import GridFilter.Proofs.Parser.Depth
import GridFilter.Proofs.Parser.Names

/-! What the grammar derives the parser reads, unless it goes too deep. Together with soundness this makes the parser
    decide the grammar, and the grammar unambiguous. -/

namespace GridFilter.Parser
open Grammar

variable {extent : Extent} {levels least : Nat}

/-- A parser gives this, unless it goes too deep. -/
def Gives {α : Type} (result : Except ParseError α) (a : α) : Prop := Deep result ∨ result = .ok a

theorem Gives.bind {α β : Type} {x : Except ParseError α} {f : α → Except ParseError β} {a : α} {b : β}
    (hx : Gives x a) (hf : Gives (f a) b) : Gives (x >>= f) b := by
  rcases hx with hx | rfl
  · exact .inl (deep_bind.mpr (.inl hx))
  · exact hf

theorem Gives.of_ok {α : Type} {result : Except ParseError α} {a : α} (h : result = .ok a) : Gives result a := .inr h

/-! ### Where a part of an expression ends -/

/-- A text that goes on neither with an opening parenthesis nor with an operator that binds at least as tightly as
    `least`. -/
structure Clear (least : Nat) (rest : List Token) : Prop where
  paren : startsWithParen '(' rest = false
  stops : Stops least rest

theorem Clear.mono {more : Nat} {rest : List Token} (h : Clear least rest) (hmore : least ≤ more) : Clear more rest :=
  ⟨h.paren, fun token htoken found hfound => Nat.lt_of_lt_of_le (h.stops token htoken found hfound) hmore⟩

theorem clear_nil : Clear least [] := ⟨rfl, by simp [Stops]⟩

theorem clear_of_kind {token : Token} {rest : List Token} (hparen : token.isParen '(' = false)
    (hkind : token.kind ≠ .operator) : Clear least (token :: rest) :=
  ⟨hparen, by simp [Stops, BinaryOperator.ofToken?, hkind]⟩

theorem clear_of_closing {token : Token} {rest : List Token} (h : token.isParen ')' = true) :
    Clear least (token :: rest) := by
  refine clear_of_kind (Bool.eq_false_iff.mpr fun hopen => ?_) (by simp [isParen_kind h])
  simp [Token.isParen_open_close hopen] at h

theorem clear_of_comma {token : Token} {rest : List Token} (h : token.kind = .comma) : Clear least (token :: rest) :=
  clear_of_kind (by simp [Token.isParen, h]) (by simp [h])

theorem isOperator_isParen {token : Token} {symbol : String} {paren : Char} (h : token.isOperator symbol = true) :
    token.isParen paren = false := by
  simp [Token.isParen, isOperator_kind h]

theorem clear_of_connective {token : Token} {rest : List Token} {c : Connective}
    (h : token.isOperator c.symbol = true) (hleast : c.precedence < least) :
    Clear least (token :: rest) := by
  refine ⟨isOperator_isParen h, fun other hother found hfound => ?_⟩
  obtain rfl : token = other := by simpa using hother
  obtain rfl : BinaryOperator.connective c = found := by simpa [ofToken?_eq_connective.mpr h] using hfound
  exact hleast

theorem clear_of_comparison {token : Token} {rest : List Token} {operator : Comparison}
    (h : token.isOperator operator.symbol = true) : Clear 4 (token :: rest) := by
  refine ⟨isOperator_isParen h, fun other hother found hfound => ?_⟩
  obtain rfl : token = other := by simpa using hother
  obtain rfl : BinaryOperator.comparison operator = found := by simpa [ofToken?_eq_comparison.mpr h] using hfound
  exact (by decide : Comparison.precedence < 4)

/-! ### Terms and comparands -/

section
variable {arguments : Parser (List Node)} {group : Parser Node} {rest : List Token} {node : Node}

theorem primary_value {token : Token} (h : Spells token node) (hrest : startsWithParen '(' rest = false) :
    primary extent group arguments (token :: rest) = .ok (node, rest) := by
  have hleaf := leaf_eq_ok.mpr h
  cases h with
  | number hkind => simp [primary, hkind, hleaf, bind, Except.bind, pure, Except.pure]
  | string hkind => simp [primary, hkind, hleaf, bind, Except.bind, pure, Except.pure]
  | null hkind => simp [primary, hkind, hleaf, bind, Except.bind, pure, Except.pure]
  | placeholder hkind => simp [primary, hkind, hleaf, bind, Except.bind, pure, Except.pure]
  | identifier hkind => simp [primary, hkind, hrest]

theorem gives_group {inner : List Token} {opened closed : Token} (hopened : opened.isParen '(' = true)
    (hclosed : closed.isParen ')' = true) (hgroup : Gives (group (inner ++ closed :: rest)) (node, closed :: rest)) :
    Gives (primary extent group arguments (opened :: (inner ++ [closed]) ++ rest)) (node, rest) := by
  simp only [List.cons_append, List.append_assoc, primary, isParen_kind hopened, hopened, if_true]
  exact hgroup.bind ((Gives.of_ok (closing_eq_ok.mpr ⟨closed, rfl, hclosed⟩)).bind (.of_ok rfl))

theorem gives_call {inner : List Token} {nodes : List Node} {name opened closed : Token} (hkind : name.kind = .function)
    (hname : Text.sameLetters name.text Node.functionName = true) (hopened : opened.isParen '(' = true)
    (hleast : Node.leastArguments ≤ nodes.length) (hclosed : closed.isParen ')' = true)
    (harguments : Gives (arguments (inner ++ closed :: rest)) (nodes, closed :: rest)) :
    Gives (primary extent group arguments (name :: opened :: (inner ++ [closed]) ++ rest)) (.isNull nodes, rest) := by
  simp only [List.cons_append, List.append_assoc, primary, hkind, call, hname, if_true]
  refine (Gives.of_ok (opening_eq_ok.mpr ⟨opened, rfl, hopened, rfl⟩)).bind (harguments.bind ?_)
  refine (Gives.of_ok (closing_eq_ok.mpr ⟨closed, rfl, hclosed⟩)).bind (.of_ok ?_)
  simp [Nat.not_lt.mpr hleast, pure, Except.pure]

end

/-! ### Lists -/

section
variable {α : Type} {item : Parser α} {Item : List Token → α → Prop}

/-- A parser reads a text in front of others, where that text ends. -/
def ReadBy (parser : Parser α) (used : List Token) (a : α) : Prop :=
  ∀ rest, Clear 0 rest → Gives (parser (used ++ rest)) (a, rest)

theorem gives_moreItems {used rest : List Token} {nodes : List α} {comma closed : Token} {bound : Nat}
    (h : Separated (ReadBy item) used nodes) (hcomma : comma.kind = .comma) (hclosed : closed.isParen ')' = true)
    (hbound : used.length < bound) :
    Gives (moreItems item bound (comma :: (used ++ closed :: rest))) (nodes, closed :: rest) := by
  induction h generalizing comma bound with
  | @one used a h =>
    obtain ⟨bound, rfl⟩ := Nat.exists_eq_succ_of_ne_zero (by omega : bound ≠ 0)
    simp only [moreItems, hcomma, if_true]
    refine (h _ (clear_of_closing hclosed)).bind (.of_ok ?_)
    cases bound <;> simp [moreItems, isParen_kind hclosed, bind, Except.bind, pure, Except.pure]
  | @more first others a as comma' h hcomma' _ ih =>
    obtain ⟨bound, rfl⟩ := Nat.exists_eq_succ_of_ne_zero (by omega : bound ≠ 0)
    simp only [moreItems, hcomma, if_true, List.append_assoc, List.cons_append]
    refine (h _ (clear_of_comma hcomma')).bind ((ih hcomma' ?_).bind (.of_ok rfl))
    simp only [List.length_append, List.length_cons] at hbound
    omega

theorem gives_commaList {used rest : List Token} {nodes : List α} {closed : Token}
    (h : Separated (ReadBy item) used nodes) (hclosed : closed.isParen ')' = true) :
    Gives (commaList item (used ++ closed :: rest)) (nodes, closed :: rest) := by
  unfold commaList
  cases h with
  | one h =>
    refine (h _ (clear_of_closing hclosed)).bind (.of_ok ?_)
    simp [moreItems, isParen_kind hclosed, bind, Except.bind, pure, Except.pure]
  | @more first others a as comma h hcomma hothers =>
    rw [List.append_assoc, List.cons_append]
    refine (h _ (clear_of_comma hcomma)).bind ((gives_moreItems hothers hcomma hclosed ?_).bind (.of_ok rfl))
    simp only [List.length_append, List.length_cons]
    omega

end

/-! ### Comparisons -/

section
variable {items : Parser (List Node)} {operand : Parser Node} {left node : Node} {operator : Comparison}
  {sign : Token} {rest : List Token}

theorem gives_list {inner : List Token} {nodes : List Node} {opened closed : Token} (hleft : left.isCondition = false)
    (hoperator : operator = .isIn ∨ operator = .notIn) (hopened : opened.isParen '(' = true)
    (hclosed : closed.isParen ')' = true)
    (hitems : Gives (items (inner ++ closed :: rest)) (nodes, closed :: rest)) :
    Gives (comparison extent operand items left operator sign (opened :: (inner ++ [closed]) ++ rest))
      (.comparison left operator (.list nodes), rest) := by
  simp only [List.cons_append, List.append_assoc, List.nil_append, comparison, hleft, Bool.false_eq_true, if_false]
  rcases hoperator with rfl | rfl
  all_goals
    refine (Gives.of_ok (opening_eq_ok.mpr ⟨opened, rfl, hopened, rfl⟩)).bind (hitems.bind ?_)
    exact (Gives.of_ok (closing_eq_ok.mpr ⟨closed, rfl, hclosed⟩)).bind (.of_ok rfl)

theorem gives_range {first second : List Token} {low high : Node} {between : Token} (hleft : left.isCondition = false)
    (hbetween : between.isOperator "AND" = true)
    (hlow : Gives (operand (first ++ between :: (second ++ rest))) (low, between :: (second ++ rest)))
    (hhigh : Gives (operand (second ++ rest)) (high, rest)) :
    Gives (comparison extent operand items left .between sign (first ++ between :: second ++ rest))
      (.comparison left .between (.range low high), rest) := by
  simp only [List.cons_append, List.append_assoc, comparison, hleft, Bool.false_eq_true, if_false]
  refine hlow.bind ((Gives.of_ok (betweenAnd_eq_ok.mpr ⟨between, rfl, hbetween⟩)).bind (hhigh.bind (.of_ok rfl)))

theorem gives_single {used : List Token} {right : Node} (hleft : left.isCondition = false) (hin : operator ≠ .isIn)
    (hnot : operator ≠ .notIn) (hbetween : operator ≠ .between)
    (hnode : Arranged left operator (.single right) node) (hright : Gives (operand (used ++ rest)) (right, rest)) :
    Gives (comparison extent operand items left operator sign (used ++ rest)) (node, rest) := by
  have hordered : Gives (ordered left operator right) node := .of_ok (ordered_eq_ok.mpr hnode)
  simp only [comparison, hleft, Bool.false_eq_true, if_false]
  cases operator with
  | isIn => exact absurd rfl hin
  | notIn => exact absurd rfl hnot
  | between => exact absurd rfl hbetween
  | _ => exact hright.bind (hordered.bind (.of_ok rfl))

end

/-! ### Chains of operators -/

section
variable {tokens rest : List Token} {left node : Node}

/-- The chain of operators behind `left` at a level. -/
def chain (extent : Extent) (levels least bound : Nat) (left : Node) : Parser Node :=
  climb (expression extent levels) (comparison extent (operand extent levels) (items extent levels)) least bound left

/-- With one level more an expression comes to the chain of operators behind `left`, unless it goes too deep. -/
def Reaches (extent : Extent) (levels least : Nat) (tokens : List Token) (left : Node) (rest : List Token) : Prop :=
  Deep (expression extent (levels + 1) least tokens) ∨ ∃ bound, rest.length ≤ bound ∧
    expression extent (levels + 1) least tokens = chain extent levels least bound left rest

theorem reaches_of_term
    (h : Gives (primary extent (expression extent levels 0) (arguments extent levels) tokens) (left, rest)) :
    Reaches extent levels least tokens left rest := by
  rcases h with h | h
  · exact .inl (deep_bind.mpr (.inl h))
  · refine .inr ⟨rest.length, Nat.le_refl _, ?_⟩
    simp only [expression, h, bind, Except.bind]
    rfl

theorem climb_of_stops {right : Nat → Parser Node} {compared : Node → Comparison → Token → Parser Node} {bound : Nat}
    (hstops : Stops least rest) (hbound : rest.length ≤ bound) :
    climb right compared least bound left rest = .ok (left, rest) := by
  cases rest with
  | nil => cases bound <;> rfl
  | cons token tail =>
    -- The bound counts the tokens that are left, so the chain stops at this one and not for want of steps.
    obtain ⟨bound, rfl⟩ := Nat.exists_eq_succ_of_ne_zero (by simp at hbound; omega : bound ≠ 0)
    unfold climb
    dsimp only
    split
    · rfl
    · next found hfound => rw [if_pos (hstops token rfl found hfound)]

theorem gives_of_reaches (h : ∀ levels, Reaches extent levels least tokens node rest) (hstops : Stops least rest) :
    Gives (expression extent levels least tokens) (node, rest) := by
  cases levels with
  | zero => exact .inl ⟨_, rfl⟩
  | succ levels =>
    rcases h levels with hdeep | ⟨bound, hbound, heq⟩
    · exact .inl hdeep
    · exact .inr (heq.trans (climb_of_stops hstops hbound))

/-- A chain takes an operator, and goes on behind its right side. -/
theorem Reaches.step {used : List Token} {sign : Token} {right : Except ParseError (Node × List Token)}
    (h : Reaches extent levels least tokens left (sign :: (used ++ rest))) (joined : Node → Node)
    (hchain : ∀ bound, chain extent levels least (bound + 1) left (sign :: (used ++ rest)) =
      right >>= fun (node, rest) => chain extent levels least bound (joined node) rest)
    (hright : Gives right (node, rest)) : Reaches extent levels least tokens (joined node) rest := by
  rcases h with hdeep | ⟨bound, hbound, heq⟩
  · exact .inl hdeep
  · simp only [List.length_cons, List.length_append] at hbound
    obtain ⟨bound, rfl⟩ := Nat.exists_eq_succ_of_ne_zero (by omega : bound ≠ 0)
    rw [Nat.succ_eq_add_one, hchain] at heq
    rcases hright with hdeep | rfl
    · exact .inl (heq ▸ deep_bind.mpr (.inl hdeep))
    · exact .inr ⟨bound, by omega, heq⟩

theorem Reaches.connective {used : List Token} {sign : Token} {c : Connective} {right : Node}
    (h : Reaches extent levels least tokens left (sign :: (used ++ rest)))
    (hsign : sign.isOperator c.symbol = true) (hleast : least ≤ c.precedence)
    (hright : Gives (expression extent levels (c.precedence + 1) (used ++ rest)) (right, rest)) :
    Reaches extent levels least tokens (.logical c left right) rest := by
  refine h.step (.logical c left) (fun bound => ?_) hright
  simp [chain, climb, ofToken?_eq_connective.mpr hsign, BinaryOperator.precedence, Nat.not_lt.mpr hleast]

theorem Reaches.comparison {used : List Token} {sign : Token} {operator : Comparison}
    (h : Reaches extent levels least tokens left (sign :: (used ++ rest)))
    (hsign : sign.isOperator operator.symbol = true) (hleast : least ≤ Comparison.precedence)
    (hright : Gives (comparison extent (operand extent levels) (items extent levels) left operator sign (used ++ rest))
      (node, rest)) : Reaches extent levels least tokens node rest := by
  refine h.step id (fun bound => ?_) hright
  simp [chain, climb, ofToken?_eq_comparison.mpr hsign, BinaryOperator.precedence, Nat.not_lt.mpr hleast]

end

/-! ### Lists and nesting at every level -/

theorem gives_nested {tokens rest : List Token} {node : Node}
    (h : ∀ levels, Gives (operand extent levels tokens) (node, rest)) :
    Gives (nested extent levels tokens) (node, rest) := by
  cases levels with
  | zero => exact .inl ⟨_, rfl⟩
  | succ levels => exact h levels

theorem gives_arguments {used rest : List Token} {nodes : List Node} {closed : Token}
    (h : ∀ levels, Separated (ReadBy (expression extent levels 0)) used nodes) (hclosed : closed.isParen ')' = true)
    (levels : Nat) : Gives (arguments extent levels (used ++ closed :: rest)) (nodes, closed :: rest) := by
  cases levels with
  | zero => exact .inl ⟨_, rfl⟩
  | succ levels => exact gives_commaList (h levels) hclosed

theorem gives_items {used rest : List Token} {nodes : List Node} {closed : Token}
    (h : ∀ levels, Separated (ReadBy (operand extent levels)) used nodes) (hclosed : closed.isParen ')' = true)
    (levels : Nat) : Gives (items extent levels (used ++ closed :: rest)) (nodes, closed :: rest) := by
  cases levels with
  | zero => exact .inl ⟨_, rfl⟩
  | succ levels => exact gives_commaList (h levels) hclosed

/-! ### Every derivation -/

end Parser

namespace Grammar
open GridFilter.Parser

variable {extent : Extent}

-- Induction on the derivation. Expressions, conjunctions and conditions come to a chain with their tree in front of it:
-- where the chain ends is known only to the text around them. What stands in parentheses or between commas is given.
mutual

theorem Expression.reaches {used : List Token} {node : Node} : Expression used node → ∀ least rest, least ≤ 1 →
    Clear 2 rest → ∀ levels, Reaches extent levels least (used ++ rest) node rest
  | .conjunction h, least, rest, hleast, hrest, levels =>
    h.reaches least rest (by omega) (hrest.mono (by omega)) levels
  | .or hfirst hsign hsecond, least, rest, hleast, hrest, levels => by
    rw [List.append_assoc, List.cons_append]
    refine Reaches.connective (c := .or) (hfirst.reaches least _ hleast ?_ levels) hsign hleast ?_
    · exact clear_of_connective (c := .or) hsign (by decide)
    · exact gives_of_reaches (hsecond.reaches 2 rest (by omega) (hrest.mono (by omega))) hrest.stops

theorem Conjunction.reaches {used : List Token} {node : Node} : Conjunction used node → ∀ least rest, least ≤ 2 →
    Clear 3 rest → ∀ levels, Reaches extent levels least (used ++ rest) node rest
  | .condition h, least, rest, hleast, hrest, levels =>
    h.reaches least rest (by omega) (hrest.mono (by omega)) levels
  | .and hfirst hsign hsecond, least, rest, hleast, hrest, levels => by
    rw [List.append_assoc, List.cons_append]
    refine Reaches.connective (c := .and) (hfirst.reaches least _ hleast ?_ levels) hsign hleast ?_
    · exact clear_of_connective (c := .and) hsign (by decide)
    · exact gives_of_reaches (hsecond.reaches 3 rest (by omega) (hrest.mono (by omega))) hrest.stops

theorem Condition.reaches {used : List Token} {node : Node} : Condition used node → ∀ least rest, least ≤ 3 →
    Clear 4 rest → ∀ levels, Reaches extent levels least (used ++ rest) node rest
  | .term h, _, rest, _, hrest, levels => reaches_of_term (h.gives rest hrest levels)
  | .compared hleft hvalue hsign hright hnode, least, rest, hleast, hrest, levels => by
    rw [List.append_assoc, List.cons_append]
    refine Reaches.comparison (reaches_of_term (hleft.gives _ (clear_of_comparison hsign) levels)) hsign hleast ?_
    exact hright.gives _ _ _ rest hvalue hnode hrest levels

theorem Term.gives {used : List Token} {node : Node} : Term used node → ∀ rest, Clear 4 rest → ∀ levels,
    Gives (primary extent (expression extent levels 0) (arguments extent levels) (used ++ rest)) (node, rest)
  | .value h, _, hrest, _ => .of_ok (primary_value h hrest.paren)
  | .call h, rest, _, levels => h.gives rest levels
  | .group hopened h hclosed, _, _, _ =>
    gives_group hopened hclosed
      (gives_of_reaches (h.reaches 0 _ (by omega) (clear_of_closing hclosed)) (clear_of_closing hclosed).stops)

theorem Comparand.gives {used : List Token} {node : Node} : Comparand used node → ∀ rest, Clear 4 rest → ∀ levels,
    Gives (operand extent levels (used ++ rest)) (node, rest)
  | .value h, _, hrest, _ => .of_ok (primary_value h hrest.paren)
  | .call h, rest, _, levels => h.gives rest levels
  | .nested hopened h hclosed, _, _, levels =>
    gives_group hopened hclosed (gives_nested fun levels => h.gives _ (clear_of_closing hclosed) levels)

theorem Call.gives {used : List Token} {node : Node} : Call used node → ∀ {group : Parser Node} rest levels,
    Gives (primary extent group (arguments extent levels) (used ++ rest)) (node, rest)
  | .isNull hkind hname hopened harguments hleast hclosed, _, _, levels =>
    gives_call hkind hname hopened hleast hclosed (gives_arguments (arguments_read harguments) hclosed levels)

theorem RightSide.gives {operator : Comparison} {used : List Token} {right : Operand} : RightSide operator used right →
    ∀ left sign node rest, left.isCondition = false → Arranged left operator right node → Clear 4 rest → ∀ levels,
      Gives (comparison extent (operand extent levels) (items extent levels) left operator sign (used ++ rest))
        (node, rest)
  | .list hoperator hopened hitems hclosed, left, sign, _, rest, hleft, .list, _, levels =>
    gives_list hleft hoperator hopened hclosed (gives_items (items_read hitems) hclosed levels)
  | .range hlow hsign hhigh, left, sign, _, rest, hleft, .range, hrest, levels =>
    gives_range hleft hsign (hlow.gives _ (clear_of_connective (c := .and) hsign (by decide)) levels)
      (hhigh.gives _ hrest levels)
  | .single hin hnot hbetween h, left, sign, _, rest, hleft, hnode, hrest, levels =>
    gives_single hleft hin hnot hbetween hnode (h.gives _ hrest levels)

theorem arguments_read {used : List Token} {nodes : List Node} : Separated Expression used nodes →
    ∀ levels, Separated (ReadBy (expression extent levels 0)) used nodes
  | .one h, levels => .one fun rest hrest =>
    gives_of_reaches (h.reaches 0 rest (by omega) (hrest.mono (by omega))) hrest.stops
  | .more h hcomma hothers, levels => .more
    (fun rest hrest => gives_of_reaches (h.reaches 0 rest (by omega) (hrest.mono (by omega))) hrest.stops) hcomma
    (arguments_read hothers levels)

theorem items_read {used : List Token} {nodes : List Node} : Separated Comparand used nodes →
    ∀ levels, Separated (ReadBy (operand extent levels)) used nodes
  | .one h, levels => .one fun rest hrest => h.gives rest (hrest.mono (by omega)) levels
  | .more h hcomma hothers, levels =>
    .more (fun rest hrest => h.gives rest (hrest.mono (by omega)) levels) hcomma (items_read hothers levels)

end

end Grammar

/-! ### Whole filters -/

namespace Grammar.Expression
open GridFilter.Parser

variable {tokens : List Token} {node : Node}

theorem gives (h : Expression tokens node) (extent : Extent) (levels : Nat) :
    Gives (expression extent levels 0 tokens) (node, []) := by
  have hreaches levels : Reaches extent levels 0 (tokens ++ []) node [] := h.reaches 0 [] (by omega) clear_nil levels
  rw [List.append_nil] at hreaches
  exact gives_of_reaches hreaches clear_nil.stops

theorem ne_nil : ¬Expression [] node := by
  intro h
  rcases h.gives ⟨0, 0⟩ 1 with ⟨limit, hdeep⟩ | hok
  · cases hdeep
  · cases hok

end Grammar.Expression

namespace ParsedFilter
open Grammar GridFilter.Parser

variable {maxDepth : Nat} {known : List String} {tokens : List Token} {node : Node}

theorem expression_of_ofTokens {parsed : ParsedFilter} (h : ofTokens maxDepth known tokens = .ok parsed) :
    Expression tokens parsed.ast :=
  (bounded_of_ofTokens h).plain

theorem gives_ofTokens (h : Expression tokens node) :
    Gives (ofTokens maxDepth known tokens) ⟨node, Text.distinct (known ++ node.placeholders)⟩ := by
  rw [ofTokens_eq]
  split
  · next hlast =>
    rw [List.getLast?_eq_none_iff] at hlast
    exact absurd (hlast ▸ h) Expression.ne_nil
  · next last _ =>
    rw [Token.foldl_noted_distinct, ← h.placeholders_eq]
    exact (h.gives ⟨last.stop, maxDepth⟩ maxDepth).bind (.of_ok rfl)

end ParsedFilter

/-- The grammar is unambiguous: the parser reads both trees, and it gives one. -/
theorem Grammar.Expression.unique {tokens : List Token} {node other : Node} (h : Grammar.Expression tokens node)
    (hother : Grammar.Expression tokens other) : node = other := by
  -- Some number of levels is enough for these tokens, and with it neither reading can go too deep.
  have hlevels : ¬Parser.Deep (ParsedFilter.ofTokens (4 * Token.peak tokens + 3) [] tokens) :=
    ParsedFilter.not_deep_ofTokens (Nat.le_refl _)
  have hnode := (ParsedFilter.gives_ofTokens h).resolve_left hlevels
  have hsame := (ParsedFilter.gives_ofTokens hother).resolve_left hlevels
  rw [hnode] at hsame
  cases hsame
  rfl

namespace ParsedFilter
open Grammar GridFilter.Parser

/-- Unless it goes too deep, the parser accepts a list of tokens with a tree if and only if the grammar derives that
    tree from the list, and the grammar derives no other tree from it. -/
theorem ofTokens_iff_expression {maxDepth : Nat} {known : List String} {tokens : List Token}
    (h : ∀ limit, ofTokens maxDepth known tokens ≠ .error (.tooDeep limit)) (node : Node) :
    ((∃ names, ofTokens maxDepth known tokens = .ok ⟨node, names⟩) ↔ Expression tokens node) ∧
      (Expression tokens node → ∀ other, Expression tokens other → other = node) := by
  refine ⟨⟨fun ⟨names, hnames⟩ => expression_of_ofTokens hnames, fun hnode => ?_⟩,
    fun hnode other hother => hother.unique hnode⟩
  exact ⟨_, (gives_ofTokens hnode).resolve_left fun ⟨limit, hlimit⟩ => h limit hlimit⟩

/-- The tokens of `1 < a AND (b BETWEEN 2 AND {c} OR d IN (NULL, 'e'))`. -/
def nestedRange : List Token := [⟨.number, "1", 0⟩, ⟨.operator, "<", 2⟩, ⟨.identifier, "a", 4⟩, ⟨.operator, "AND", 6⟩,
  ⟨.paren, "(", 10⟩, ⟨.identifier, "b", 11⟩, ⟨.operator, "BETWEEN", 13⟩, ⟨.number, "2", 21⟩, ⟨.operator, "AND", 23⟩,
  ⟨.placeholder, "c", 27⟩, ⟨.operator, "OR", 31⟩, ⟨.identifier, "d", 34⟩, ⟨.operator, "IN", 36⟩, ⟨.paren, "(", 39⟩,
  ⟨.null, "NULL", 40⟩, ⟨.comma, ",", 44⟩, ⟨.string, "e", 46⟩, ⟨.paren, ")", 49⟩, ⟨.paren, ")", 50⟩]

theorem expression_nestedRange : (∀ limit, ofTokens 11 [] nestedRange ≠ .error (.tooDeep limit)) ∧
    Expression nestedRange (.logical .and (.compare (.field "a") .gt (.literal (.int 1)))
      (.logical .or (.comparison (.field "b") .between (.range (.literal (.int 2)) (.placeholder "c")))
        (.comparison (.field "d") .isIn (.list [.literal .null, .literal (.string "e")])))) := by
  have h limit (hlimit : ofTokens 11 [] nestedRange = .error (.tooDeep limit)) : False :=
    not_deep_ofTokens (by decide) ⟨limit, hlimit⟩
  exact ⟨h, (ofTokens_iff_expression h _).1.mp ⟨["c"], by rw [ofTokens_eq]; rfl⟩⟩

end ParsedFilter

end GridFilter
