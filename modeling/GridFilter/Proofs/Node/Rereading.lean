import GridFilter.Proofs.Node.Shapes
import GridFilter.Proofs.Number.Literals

/-! Reading the tokens of a tree's spelling again: the grammar derives an equal tree from them, and they nest no
    deeper than the tree. -/

namespace GridFilter
open Token

/-! ### Depth -/

namespace Token

/-- Tokens in front of others open no more than this many parentheses inside each other. -/
def Nests (tokens : List Token) (depth : Nat) : Prop := ∀ rest, peak (tokens ++ rest) ≤ max depth (peak rest)

variable {tokens first second inner : List Token} {sign opened closed : Token} {depth more : Nat}

theorem Nests.mono (h : Nests tokens depth) (hmore : depth ≤ more) : Nests tokens more := by
  intro rest
  have hrest := h rest
  omega

theorem nests_nil : Nests [] depth := fun _ => Nat.le_max_right _ _

theorem Nests.cons (h : Nests tokens depth) (hsign : sign.kind ≠ .paren) : Nests (sign :: tokens) depth := by
  intro rest
  have hpeak : peak (sign :: tokens ++ rest) = peak (tokens ++ rest) := peak_other hsign
  rw [hpeak]
  exact h rest

theorem Nests.joined (hfirst : Nests first depth) (hsign : sign.kind ≠ .paren) (hsecond : Nests second more) :
    Nests (first ++ sign :: second) (max depth more) := by
  intro rest
  rw [List.append_assoc]
  have hfront := hfirst (sign :: second ++ rest)
  have hbehind := hsecond.cons hsign rest
  omega

theorem Nests.enclosed (h : Nests inner depth) (hopened : opened.isParen '(' = true)
    (hclosed : closed.isParen ')' = true) : Nests (opened :: (inner ++ [closed])) (1 + depth) := by
  intro rest
  have hinner := h (closed :: rest)
  rw [peak_closing hclosed] at hinner
  rw [List.cons_append, peak_opening hopened, List.append_assoc, List.singleton_append]
  omega

/-! ### Tokens by their kinds and texts -/

variable {shape : Shape} {shapes others : List Shape}

theorem map_eq_joined (h : tokens.map Token.shape = shapes ++ shape :: others) :
    ∃ first sign second, tokens = first ++ sign :: second ∧ first.map Token.shape = shapes ∧ sign.shape = shape ∧
      second.map Token.shape = others := by
  obtain ⟨first, behind, rfl, hfirst, hbehind⟩ := List.map_eq_append_iff.mp h
  obtain ⟨sign, second, rfl, hsign, hsecond⟩ := List.map_eq_cons_iff.mp hbehind
  exact ⟨first, sign, second, rfl, hfirst, hsign, hsecond⟩

theorem isParen_of_shape {token : Token} (h : token.shape = (.paren, "(")) : token.isParen '(' = true := by
  obtain ⟨hkind, htext⟩ := Prod.mk.inj h
  simp [isParen, hkind, htext]

theorem map_eq_enclosed (h : tokens.map Token.shape = Node.enclosed shapes) :
    ∃ opened inner closed, tokens = opened :: (inner ++ [closed]) ∧ opened.isParen '(' = true ∧
      inner.map Token.shape = shapes ∧ closed.isParen ')' = true := by
  obtain ⟨opened, behind, rfl, hopened, hbehind⟩ := List.map_eq_cons_iff.mp h
  obtain ⟨inner, closed, rest, rfl, hinner, hclosed, hrest⟩ := map_eq_joined hbehind
  obtain rfl := List.map_eq_nil_iff.mp hrest
  refine ⟨opened, inner, closed, rfl, isParen_of_shape hopened, hinner, ?_⟩
  obtain ⟨hkind, htext⟩ := Prod.mk.inj hclosed
  simp [isParen, hkind, htext]

theorem map_eq_one (h : tokens.map Token.shape = [shape]) : ∃ token, tokens = [token] ∧ token.shape = shape :=
  List.map_eq_singleton_iff.mp h

end Token

/-! ### Equal trees -/

namespace Node
open Grammar

variable {node other left right : Node} {operand : Operand} {operator : Comparison} {items others : List Node}
  {token : Token} {tokens : List Token}

theorem isCondition_of_same (h : other.same node = true) : other.isCondition = node.isCondition := by
  cases other <;> cases node <;> simp_all [same, isCondition]

theorem isField_of_same (h : other.same node = true) : other.isField = node.isField := by
  cases other <;> cases node <;> simp_all [same, isField]

theorem isConstant_of_same (h : other.same node = true) : other.isConstant = node.isConstant := by
  cases other <;> cases node <;> simp_all [same, isConstant]

theorem length_of_sameList (h : sameList others items = true) : others.length = items.length := by
  induction others generalizing items with
  | nil =>
    cases items with
    | nil => rfl
    | cons item items => cases h
  | cons other others ih =>
    cases items with
    | nil => cases h
    | cons item items =>
      rw [sameList, Bool.and_eq_true] at h
      rw [List.length_cons, List.length_cons, ih h.2]

theorem isCondition_of_sameList (h : sameList others items = true)
    (hitems : ∀ item ∈ items, item.isCondition = false) :
    ∀ other ∈ others, other.isCondition = false := by
  induction others generalizing items with
  | nil => nofun
  | cons other others ih =>
    cases items with
    | nil => cases h
    | cons item items =>
      rw [sameList, Bool.and_eq_true] at h
      have hfirst : other.isCondition = false := (isCondition_of_same h.1).trans (hitems item (by simp))
      exact List.forall_mem_cons.mpr ⟨hfirst, ih h.2 fun item hitem => hitems item (by simp [hitem])⟩

/-- A comparison that the grammar could have arranged so, it leaves as it stands. -/
theorem arranged_single (h : Arranged left operator (.single right) (.compare left operator right)) :
    right.isField = true → left.isField = false ∧ (left.isConstant && operator.isRelational) = false := by
  generalize hnode : Node.compare left operator right = node at h
  cases h with
  | kept h => exact h
  | turned hfield hconstant _ =>
    obtain ⟨rfl, -⟩ : left = right ∧ _ := by simpa [Node.compare] using hnode
    rw [isField_of_isConstant hconstant] at hfield
    cases hfield

theorem arranged_of_same {subject subject' : Node} {operand' : Operand}
    (h : Arranged subject operator operand (.comparison subject operator operand))
    (hsubject : subject'.same subject = true) (hoperand : sameOperand operand' operand = true) :
    Arranged subject' operator operand' (.comparison subject' operator operand') := by
  cases operand' with
  | list items => exact .list
  | range low high => exact .range
  | single right' =>
    cases operand with
    | list items => cases hoperand
    | range low high => cases hoperand
    | single right =>
      refine .kept fun hfield => ?_
      rw [isField_of_same hsubject, isConstant_of_same hsubject]
      exact arranged_single h (by rwa [← isField_of_same hoperand])

/-! ### Deriving trees again -/

/-- Tokens that derive a tree wherever a tree of its kind may stand. -/
structure Derives (tokens : List Token) (node : Node) : Prop where
  condition : Condition tokens node
  term : node.isCondition = false → Term tokens node
  comparand : node.isCondition = false → Comparand tokens node

/-- Tokens that derive an equal tree, and nest no deeper than the tree. -/
structure Rereads (tokens : List Token) (node : Node) : Prop where
  nests : Nests tokens node.depth
  derives : ∃ other, other.same node = true ∧ Derives tokens other

theorem Rereads.of_spells (h : Spells token other) (hsame : other.same node = true) : Rereads [token] node :=
  ⟨nests_nil.cons h.kind_ne_paren, other, hsame, .term (.value h), fun _ => .value h, fun _ => .value h⟩

theorem rereads_literal {value : Value} (hformed : Formed (.literal value)) (hplain : Plain (.literal value))
    (h : token.shape = value.shape) : Rereads [token] (.literal value) := by
  have hnumber (hshape : value.shape = (.number, value.spelling)) (other : Value)
      (hother : Parser.numberOf? value.spelling.toList = some other) (hsame : other.same value = true) :
      Rereads [token] (.literal value) := by
    obtain ⟨hkind, htext⟩ := Prod.mk.inj (h.trans hshape)
    rw [← htext] at hother
    exact .of_spells (.number hkind hother) hsame
  cases value with
  | null => exact .of_spells (.null (Prod.mk.inj h).1) rfl
  | int n => exact hnumber rfl _ Value.readsBack_int.2 (by simp [Value.same])
  | float x =>
    obtain ⟨-, value, hvalue, hsame⟩ := Value.readsBack_float hplain
    exact hnumber rfl value hvalue hsame
  | string s =>
    obtain ⟨hkind, rfl⟩ := Prod.mk.inj h
    exact .of_spells (.string hkind) (by simp [same, Value.same])
  | bool b => cases hformed
  | array items => cases hformed
  | object entries => cases hformed

theorem separated_expressions (h : Separated Derives tokens items) : Separated Expression tokens items := by
  induction h with
  | one h => exact .one (.conjunction (.condition h.condition))
  | more h hcomma _ ih => exact .more (.conjunction (.condition h.condition)) hcomma ih

theorem separated_comparands (h : Separated Derives tokens items) (hitems : ∀ item ∈ items, item.isCondition = false) :
    Separated Comparand tokens items := by
  induction h with
  | one h => exact .one (h.comparand (hitems _ (by simp)))
  | more h hcomma _ ih =>
    exact .more (h.comparand (hitems _ (by simp))) hcomma (ih fun item hitem => hitems item (by simp [hitem]))

/-- Tokens that derive an equal operand behind its operator, and nest no deeper than the comparison. -/
structure OperandRereads (operator : Comparison) (tokens : List Token) (operand : Operand) : Prop where
  nests : Nests tokens (1 + operandDepth operand)
  derives : ∃ other, sameOperand other operand = true ∧ RightSide operator tokens other

/-- Tokens that derive equal trees with commas between them. -/
structure ListRereads (tokens : List Token) (items : List Node) : Prop where
  nests : Nests tokens (listDepth items)
  derives : ∃ others, sameList others items = true ∧ Separated Derives tokens others

section
variable {first second inner : List Token} {opened sign closed name : Token} {connective : Connective}
  {subject low high : Node}

theorem Rereads.logical (hleft : Rereads first left) (hright : Rereads second right)
    (hopened : opened.isParen '(' = true) (hsign : sign.isOperator connective.symbol = true) (hclosed : closed.isParen ')' = true) :
    Rereads (opened :: (first ++ sign :: second ++ [closed])) (.logical connective left right) := by
  obtain ⟨hnests, other, hsame, hother⟩ := hleft
  obtain ⟨hnests', other', hsame', hother'⟩ := hright
  refine ⟨(hnests.joined (isOperator_ne_paren hsign) hnests').enclosed hopened hclosed,
    .logical connective other other', by simp [same, hsame, hsame'], ?_, nofun, nofun⟩
  refine .term (.group hopened ?_ hclosed)
  cases connective with
  | and => exact .conjunction (.and (.condition hother.condition) hsign hother'.condition)
  | or => exact .or (.conjunction (.condition hother.condition)) hsign (.condition hother'.condition)

theorem Rereads.comparison (hsubject : Rereads first subject) (hoperand : OperandRereads operator second operand)
    (hvalue : subject.isCondition = false)
    (harranged : Arranged subject operator operand (.comparison subject operator operand))
    (hsign : sign.isOperator operator.symbol = true) :
    Rereads (first ++ sign :: second) (.comparison subject operator operand) := by
  obtain ⟨hnests, other, hsame, hother⟩ := hsubject
  obtain ⟨hnests', other', hsame', hother'⟩ := hoperand
  have hvalue' : other.isCondition = false := (isCondition_of_same hsame).trans hvalue
  refine ⟨(hnests.joined (isOperator_ne_paren hsign) hnests').mono (by rw [depth]; omega),
    .comparison other operator other', by simp [same, hsame, hsame'], ?_, nofun, nofun⟩
  exact .compared (hother.term hvalue') hvalue' hsign hother' (arranged_of_same harranged hsame hsame')

theorem Rereads.isNull (h : ListRereads inner items) (hleast : leastArguments ≤ items.length)
    (hname : name.shape = (.function, functionName)) (hopened : opened.isParen '(' = true)
    (hclosed : closed.isParen ')' = true) : Rereads (name :: opened :: (inner ++ [closed])) (.isNull items) := by
  obtain ⟨hnests, others, hsame, hothers⟩ := h
  obtain ⟨hkind, htext⟩ := Prod.mk.inj hname
  have hcall : Call (name :: opened :: (inner ++ [closed])) (.isNull others) :=
    .isNull hkind (by rw [htext]; decide) hopened (separated_expressions hothers)
      (by rwa [length_of_sameList hsame]) hclosed
  exact ⟨(hnests.enclosed hopened hclosed).cons (by simp [hkind]), .isNull others, hsame, .term (.call hcall),
    fun _ => .call hcall, fun _ => .call hcall⟩

theorem OperandRereads.single (h : Rereads tokens node) (hfitting : Fitting operator (.single node)) :
    OperandRereads operator tokens (.single node) := by
  obtain ⟨hnests, other, hsame, hother⟩ := h
  cases hfitting with
  | single hin hnot hbetween hvalue =>
    have hvalue' : other.isCondition = false := (isCondition_of_same hsame).trans hvalue
    exact ⟨hnests.mono (Nat.le_add_left _ _), .single other, hsame,
      .single hin hnot hbetween (hother.comparand hvalue')⟩

theorem OperandRereads.list (h : ListRereads inner items) (hfitting : Fitting operator (.list items))
    (hopened : opened.isParen '(' = true) (hclosed : closed.isParen ')' = true) :
    OperandRereads operator (opened :: (inner ++ [closed])) (.list items) := by
  obtain ⟨hnests, others, hsame, hothers⟩ := h
  cases hfitting with
  | list hoperator _ hvalues =>
    have hitems := separated_comparands hothers (isCondition_of_sameList hsame hvalues)
    exact ⟨hnests.enclosed hopened hclosed, .list others, hsame, .list hoperator hopened hitems hclosed⟩

theorem OperandRereads.range (hlow : Rereads first low) (hhigh : Rereads second high)
    (hfitting : Fitting operator (.range low high)) (hsign : sign.isOperator "AND" = true) :
    OperandRereads operator (first ++ sign :: second) (.range low high) := by
  obtain ⟨hnests, other, hsame, hother⟩ := hlow
  obtain ⟨hnests', other', hsame', hother'⟩ := hhigh
  cases hfitting with
  | range hvalue hvalue' =>
    have hlow' : other.isCondition = false := (isCondition_of_same hsame).trans hvalue
    have hhigh' : other'.isCondition = false := (isCondition_of_same hsame').trans hvalue'
    exact ⟨(hnests.joined (isOperator_ne_paren hsign) hnests').mono (Nat.le_add_left _ _), .range other other',
      by simp [sameOperand, hsame, hsame'], .range (hother.comparand hlow') hsign (hother'.comparand hhigh')⟩

theorem ListRereads.one (h : Rereads tokens node) : ListRereads tokens [node] := by
  obtain ⟨hnests, other, hsame, hother⟩ := h
  exact ⟨hnests.mono (by rw [listDepth]; omega), [other], by simp [sameList, hsame], .one hother⟩

theorem ListRereads.more (h : Rereads first node) (hothers : ListRereads second items) (hsign : sign.kind = .comma) :
    ListRereads (first ++ sign :: second) (node :: items) := by
  obtain ⟨hnests, other, hsame, hother⟩ := h
  obtain ⟨hnests', others, hsame', hothers⟩ := hothers
  exact ⟨hnests.joined (by simp [hsign]) hnests', other :: others, by simp [sameList, hsame, hsame'],
    .more hother hsign hothers⟩

end

mutual

/-- The tokens of a tree's spelling derive an equal tree. -/
theorem rereads : (node : Node) → node.Printable → ∀ tokens, tokens.map Token.shape = node.shapes →
    Rereads tokens node
  | .logical connective left right, hnode, tokens, htokens => by
    obtain ⟨hleft, hright⟩ := printable_logical hnode
    obtain ⟨opened, inner, closed, rfl, hopened, hinner, hclosed⟩ := map_eq_enclosed htokens
    obtain ⟨first, sign, second, rfl, hfirst, hsign, hsecond⟩ := map_eq_joined hinner
    exact .logical (rereads left hleft first hfirst) (rereads right hright second hsecond) hopened
      (isOperator_of_shape hsign) hclosed
  | .comparison subject operator operand, hnode, tokens, htokens => by
    obtain ⟨⟨⟨hvalue, hfitting, harranged⟩, -⟩, hsubject, hoperand⟩ := printable_comparison hnode
    obtain ⟨first, sign, second, rfl, hfirst, hsign, hsecond⟩ := map_eq_joined htokens
    exact .comparison (rereads subject hsubject first hfirst)
      (operand_rereads operand hoperand operator hfitting second hsecond) hvalue harranged (isOperator_of_shape hsign)
  | .isNull arguments, hnode, tokens, htokens => by
    obtain ⟨hleast, harguments⟩ := printable_isNull hnode
    obtain ⟨name, behind, rfl, hname, hbehind⟩ := List.map_eq_cons_iff.mp htokens
    obtain ⟨opened, inner, closed, rfl, hopened, hinner, hclosed⟩ := map_eq_enclosed hbehind
    have hne : arguments ≠ [] := by
      rintro rfl
      cases hleast
    exact .isNull (list_rereads arguments harguments hne inner hinner) hleast hname hopened hclosed
  | .field name, _, tokens, htokens => by
    obtain ⟨token, rfl, hshape⟩ := map_eq_one htokens
    obtain ⟨hkind, rfl⟩ := Prod.mk.inj hshape
    exact .of_spells (.identifier hkind) (by simp [same])
  | .literal value, hnode, tokens, htokens => by
    obtain ⟨token, rfl, hshape⟩ := map_eq_one htokens
    obtain ⟨hformed, hplain⟩ := hnode (.literal value) (by simp [parts])
    exact rereads_literal hformed hplain hshape
  | .placeholder name, _, tokens, htokens => by
    obtain ⟨token, rfl, hshape⟩ := map_eq_one htokens
    obtain ⟨hkind, rfl⟩ := Prod.mk.inj hshape
    exact .of_spells (.placeholder hkind) (by simp [same])

theorem operand_rereads : (operand : Operand) → OperandPrintable operand → ∀ operator, Fitting operator operand →
    ∀ tokens, tokens.map Token.shape = operandShapes operand → OperandRereads operator tokens operand
  | .single node, hoperand, _, hfitting, tokens, htokens => .single (rereads node hoperand tokens htokens) hfitting
  | .list items, hoperand, operator, hfitting, tokens, htokens => by
    have hne : items ≠ [] := by
      cases hfitting
      assumption
    obtain ⟨opened, inner, closed, rfl, hopened, hinner, hclosed⟩ := map_eq_enclosed htokens
    exact .list (list_rereads items hoperand hne inner hinner) hfitting hopened hclosed
  | .range low high, hoperand, _, hfitting, tokens, htokens => by
    obtain ⟨hlow, hhigh⟩ := printable_range hoperand
    obtain ⟨first, sign, second, rfl, hfirst, hsign, hsecond⟩ := map_eq_joined htokens
    exact .range (rereads low hlow first hfirst) (rereads high hhigh second hsecond) hfitting
      (isOperator_of_shape hsign)

theorem list_rereads : (items : List Node) → ListPrintable items → items ≠ [] → ∀ tokens,
    tokens.map Token.shape = listShapes items → ListRereads tokens items
  | [], _, hne, _, _ => absurd rfl hne
  | [item], hitems, _, tokens, htokens => .one (rereads item (printable_cons hitems).1 tokens htokens)
  | item :: next :: rest, hitems, _, tokens, htokens => by
    obtain ⟨hitem, hothers⟩ := printable_cons hitems
    obtain ⟨first, comma, second, rfl, hfirst, hcomma, hsecond⟩ := map_eq_joined htokens
    exact .more (rereads item hitem first hfirst) (list_rereads (next :: rest) hothers (by simp) second hsecond)
      (Prod.mk.inj hcomma).1

end

end Node

end GridFilter
