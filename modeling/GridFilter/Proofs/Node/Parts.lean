import GridFilter.Proofs.Parser.Grammar
import GridFilter.Proofs.Token.Respelling
import GridFilter.Proofs.Value.Equality

/-! The nodes of a tree one by one, and what is known of each node of a tree that the grammar derives from the tokens
    of a text. -/

namespace GridFilter

/-! ### Parts -/

namespace Node
open Grammar

variable {node : Node} {items : List Node}

mutual

/-- A node and all nodes below it. -/
def parts : Node → List Node
  | .logical connective left right => .logical connective left right :: (left.parts ++ right.parts)
  | .comparison subject operator operand =>
    .comparison subject operator operand :: (subject.parts ++ operandParts operand)
  | .isNull arguments => .isNull arguments :: listParts arguments
  | .field name => [.field name]
  | .literal value => [.literal value]
  | .placeholder name => [.placeholder name]

/-- All nodes of an operand. -/
def operandParts : Operand → List Node
  | .single node => node.parts
  | .list items => listParts items
  | .range low high => low.parts ++ high.parts

/-- All nodes of a list of nodes. -/
def listParts : List Node → List Node
  | [] => []
  | node :: rest => node.parts ++ listParts rest

end

/-- The operand has the form that the operator asks for, and is made of values. -/
inductive Fitting : Comparison → Operand → Prop where
  | list {operator : Comparison} {items : List Node} : operator = .isIn ∨ operator = .notIn → items ≠ [] →
      (∀ item ∈ items, item.isCondition = false) → Fitting operator (.list items)
  | range {low high : Node} : low.isCondition = false → high.isCondition = false → Fitting .between (.range low high)
  | single {operator : Comparison} {node : Node} : operator ≠ .isIn → operator ≠ .notIn → operator ≠ .between →
      node.isCondition = false → Fitting operator (.single node)

/-- What is known of one node of a tree that has been read. -/
def Formed : Node → Prop
  | .logical .. => True
  | .comparison subject operator operand => subject.isCondition = false ∧ Fitting operator operand ∧
    Arranged subject operator operand (.comparison subject operator operand)
  | .isNull arguments => leastArguments ≤ arguments.length
  | .field name => Lexeme.IsName name.toList
  | .literal .null | .literal (.int _) | .literal (.float _) => True
  | .literal (.string s) => Lexeme.placeholder? (Lexeme.quotes s.toList) = none
  | .literal _ => False
  | .placeholder name => '\x7d' ∉ name.toList ∧ Text.trim name.toList = name.toList

/-- Every node of a tree is formed. -/
def Built (node : Node) : Prop := ∀ part ∈ node.parts, part.Formed

/-- One node of a tree whose spelling reads back: a number is finite, a placeholder has a name, and a field `NOT` is
    not followed by a word that makes an operator of it. -/
def Plain : Node → Prop
  | .literal (.float x) => x.isFinite = true
  | .placeholder name => name ≠ ""
  | .comparison (.field name) operator _ =>
    operator = .isIn ∨ operator = .like → Text.sameLetters name "NOT" = false
  | _ => True

/-- A tree whose spelling reads back. -/
def Printable (node : Node) : Prop := ∀ part ∈ node.parts, part.Formed ∧ part.Plain

/-- The nodes of an operand are those of a tree whose spelling reads back. -/
def OperandPrintable (operand : Operand) : Prop := ∀ part ∈ operandParts operand, part.Formed ∧ part.Plain

/-- The nodes of a list are those of trees whose spellings read back. -/
def ListPrintable (items : List Node) : Prop := ∀ part ∈ listParts items, part.Formed ∧ part.Plain

section
variable {connective : Connective} {left right subject low high : Node} {operator : Comparison} {operand : Operand}

theorem printable_logical (h : Printable (.logical connective left right)) : left.Printable ∧ right.Printable :=
  List.forall_mem_append.mp (List.forall_mem_cons.mp h).2

theorem printable_comparison (h : Printable (.comparison subject operator operand)) :
    (Formed (.comparison subject operator operand) ∧ Plain (.comparison subject operator operand)) ∧
      subject.Printable ∧ OperandPrintable operand :=
  ⟨(List.forall_mem_cons.mp h).1, List.forall_mem_append.mp (List.forall_mem_cons.mp h).2⟩

theorem printable_isNull (h : Printable (.isNull items)) : leastArguments ≤ items.length ∧ ListPrintable items :=
  ⟨(List.forall_mem_cons.mp h).1.1, (List.forall_mem_cons.mp h).2⟩

theorem printable_range (h : OperandPrintable (.range low high)) : low.Printable ∧ high.Printable :=
  List.forall_mem_append.mp h

theorem printable_cons (h : ListPrintable (node :: items)) : node.Printable ∧ ListPrintable items :=
  List.forall_mem_append.mp h

end

theorem isCondition_of_spells {token : Token} (h : Spells token node) : node.isCondition = false := by
  cases h <;> rfl

theorem isCondition_of_call {tokens : List Token} (h : Call tokens node) : node.isCondition = false := by
  cases h
  rfl

theorem isCondition_of_isField (h : node.isField = true) : node.isCondition = false := by
  cases node with
  | field name => rfl
  | _ => cases h

theorem isField_of_isConstant (h : node.isConstant = true) : node.isField = false := by
  cases node with
  | field name => cases h
  | _ => rfl

theorem fitting_of_isRelational {operator : Comparison} (h : operator.isRelational = true)
    (hnode : node.isCondition = false) : Fitting operator (.single node) := by
  refine .single ?_ ?_ ?_ hnode
  all_goals
    rintro rfl
    cases h

end Node

/-! ### What the grammar promises -/

namespace Grammar
open Node

theorem Comparand.isCondition {tokens : List Token} {node : Node} : Comparand tokens node → node.isCondition = false
  | .nested _ h _ => h.isCondition
  | .value h => isCondition_of_spells h
  | .call h => isCondition_of_call h

theorem Separated.ne_nil {α : Type} {Item : List Token → α → Prop} {tokens : List Token} {items : List α}
    (h : Separated Item tokens items) : items ≠ [] := by
  cases h <;> simp

theorem isCondition_items {tokens : List Token} {items : List Node} (h : Separated Comparand tokens items) :
    ∀ item ∈ items, item.isCondition = false := by
  induction h with
  | one h => simpa using h.isCondition
  | more h _ _ ih => exact List.forall_mem_cons.mpr ⟨h.isCondition, ih⟩

/-- The tokens have the form that their kinds ask for. -/
def Read (tokens : List Token) : Prop := ∀ token ∈ tokens, Token.Sourced token.shape

theorem read_append {first second : List Token} : Read (first ++ second) ↔ Read first ∧ Read second :=
  List.forall_mem_append

theorem read_cons {token : Token} {tokens : List Token} :
    Read (token :: tokens) ↔ Token.Sourced token.shape ∧ Read tokens := List.forall_mem_cons

theorem Read.inner {inner : List Token} {opened closed : Token} (h : Read (opened :: (inner ++ [closed]))) :
    Read inner :=
  (read_append.mp (read_cons.mp h).2).1

theorem Read.sides {first second : List Token} {sign : Token} (h : Read (first ++ sign :: second)) :
    Read first ∧ Read second :=
  ⟨(read_append.mp h).1, (read_cons.mp (read_append.mp h).2).2⟩

theorem numberOf?_kind {text : List Char} {value : Value} (h : Parser.numberOf? text = some value) :
    (∃ n, value = .int n) ∨ ∃ x, value = .float x := by
  unfold Parser.numberOf? at h
  split at h
  · next n _ => exact .inl ⟨n, (Option.some.inj h).symm⟩
  · obtain ⟨x, -, hx⟩ := Option.map_eq_some_iff.mp h
    exact .inr ⟨x, hx.symm⟩

theorem Spells.formed {token : Token} {node : Node} (h : Spells token node) (hread : Token.Sourced token.shape) :
    node.Formed := by
  obtain ⟨kind, text, position⟩ := token
  cases h with
  | number _ hvalue =>
    obtain ⟨n, rfl⟩ | ⟨x, rfl⟩ := numberOf?_kind hvalue
    · trivial
    · trivial
  | null => trivial
  | string hkind =>
    obtain rfl : kind = .string := hkind
    exact hread
  | identifier hkind =>
    obtain rfl : kind = .identifier := hkind
    exact hread
  | placeholder hkind =>
    obtain rfl : kind = .placeholder := hkind
    obtain ⟨body, hbody, hclosing⟩ : ∃ body, text.toList = Text.trim body ∧ '\x7d' ∉ body := hread
    refine ⟨?_, ?_⟩
    · rw [hbody]
      exact fun hmem => hclosing (Text.mem_of_mem_trim hmem)
    · rw [hbody]
      exact Text.trim_trim

theorem Spells.built {token : Token} {node : Node} (h : Spells token node) (hread : Token.Sourced token.shape) :
    node.Built := by
  have hparts : node.parts = [node] := by cases h <;> simp [parts]
  intro part hpart
  obtain rfl : part = node := by simpa [hparts] using hpart
  exact h.formed hread

/-- The comparison of a value with a fitting operand is formed, on whichever side the field stood. -/
theorem Arranged.built {left node : Node} {operator : Comparison} {right : Operand}
    (h : Arranged left operator right node)
    (hvalue : left.isCondition = false) (hfitting : Fitting operator right) (hleft : left.Built)
    (hright : ∀ part ∈ operandParts right, part.Formed) : node.Built := by
  have hkept (hnode : node = .comparison left operator right) : node.Built := by
    subst hnode
    exact List.forall_mem_cons.mpr ⟨⟨hvalue, hfitting, h⟩, List.forall_mem_append.mpr ⟨hleft, hright⟩⟩
  cases h with
  | list => exact hkept rfl
  | range => exact hkept rfl
  | kept => exact hkept rfl
  | @turned right hfield hconstant hrelational =>
    have hinverse : Fitting operator.inverse (.single left) :=
      fitting_of_isRelational (by rwa [Value.isRelational_inverse]) hvalue
    have harranged : Arranged right operator.inverse (.single left) (.compare right operator.inverse left) :=
      .kept fun hleft => by simp [isField_of_isConstant hconstant] at hleft
    exact List.forall_mem_cons.mpr ⟨⟨isCondition_of_isField hfield, hinverse, harranged⟩,
      List.forall_mem_append.mpr ⟨hright, hleft⟩⟩

theorem RightSide.fitting {operator : Comparison} {tokens : List Token} {right : Operand}
    (h : RightSide operator tokens right) : Fitting operator right := by
  cases h with
  | list hoperator _ hitems _ => exact .list hoperator hitems.ne_nil (isCondition_items hitems)
  | range hlow _ hhigh => exact .range hlow.isCondition hhigh.isCondition
  | single hin hnot hbetween h => exact .single hin hnot hbetween h.isCondition

/-- The nodes of a tree that is read from tokens are formed if the tokens have the form that their kinds ask for. -/
theorem compositional_built : Compositional (fun used node => Read used → node.Built)
    (fun used nodes => Read used → ∀ part ∈ listParts nodes, part.Formed)
    (fun used right => Read used → ∀ part ∈ operandParts right, part.Formed) where
  value h hread := h.built (read_cons.mp hread).1
  group _ h _ hread := h hread.inner
  call _ _ h hleast _ hread := List.forall_mem_cons.mpr ⟨hleast, h (read_cons.mp hread).2.inner⟩
  logical hfirst _ hsecond hread :=
    List.forall_mem_cons.mpr ⟨trivial, List.forall_mem_append.mpr ⟨hfirst hread.sides.1, hsecond hread.sides.2⟩⟩
  compared hfirst hvalue _ hright hothers hnode hread :=
    hnode.built hvalue hright.fitting (hfirst hread.sides.1) (hothers hread.sides.2)
  one h hread := List.forall_mem_append.mpr ⟨h hread, nofun⟩
  more hfirst _ hothers hread := List.forall_mem_append.mpr ⟨hfirst hread.sides.1, hothers hread.sides.2⟩
  list _ h _ hread := h hread.inner
  range hlow _ hhigh hread := List.forall_mem_append.mpr ⟨hlow hread.sides.1, hhigh hread.sides.2⟩
  single h := h

theorem Expression.built {tokens : List Token} {node : Node} (h : Expression tokens node) : Read tokens → node.Built :=
  compositional_built.expression h

end Grammar

end GridFilter
