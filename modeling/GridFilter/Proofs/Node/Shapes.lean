import GridFilter.Node.Spelling
import GridFilter.Proofs.Node.Parts
import GridFilter.Proofs.Parser.Depth

/-! The tokens that the spelling of a tree has. Apart from the form of its numbers and the parentheses, and with the
    sides of a turned comparison exchanged, they are those that the tree was read from. -/

namespace GridFilter
open Token

/-! ### The tokens of a spelling -/

/-- The kind and the text of the token of a value. -/
def Value.shape : Value → Shape
  | .null => (.null, "NULL")
  | .string s => (.string, s)
  | other => (.number, other.spelling)

namespace Node

/-- An operator as a token. -/
def sign (symbol : String) : Shape := (.operator, symbol)

/-- Tokens in parentheses. -/
def enclosed (inner : List Shape) : List Shape := (.paren, "(") :: (inner ++ [(.paren, ")")])

mutual

/-- The kinds and texts of the tokens of a tree's spelling. -/
def shapes : Node → List Shape
  | .logical connective left right => enclosed (left.shapes ++ sign connective.symbol :: right.shapes)
  | .comparison subject operator operand => subject.shapes ++ sign operator.symbol :: operandShapes operand
  | .isNull arguments => (.function, functionName) :: enclosed (listShapes arguments)
  | .field name => [(.identifier, name)]
  | .literal value => [value.shape]
  | .placeholder name => [(.placeholder, name)]

/-- The tokens of an operand's spelling. -/
def operandShapes : Operand → List Shape
  | .single node => node.shapes
  | .list items => enclosed (listShapes items)
  | .range low high => low.shapes ++ sign "AND" :: high.shapes

/-- The tokens of the spellings of a list of nodes, with commas between them. -/
def listShapes : List Node → List Shape
  | [] => []
  | [node] => node.shapes
  | node :: rest => node.shapes ++ (.comma, ",") :: listShapes rest

end

end Node

/-! ### Strings and placeholders alone -/

namespace Token

/-- A string or a placeholder. -/
def isMark (shape : Shape) : Bool := shape.1 = .string || shape.1 = .placeholder

/-- The strings and placeholders of a list. -/
def marks (shapes : List Shape) : List Shape := shapes.filter isMark

variable {shape : Shape} {shapes others : List Shape}

theorem marks_append : marks (shapes ++ others) = marks shapes ++ marks others := List.filter_append _ _

theorem marks_cons_of_not (h : isMark shape = false) : marks (shape :: shapes) = marks shapes :=
  List.filter_cons_of_neg (by simp [h])

theorem marked_marks : marked (marks shapes) = marked shapes := by
  induction shapes with
  | nil => rfl
  | cons shape shapes ih =>
    cases hmark : isMark shape with
    | true =>
      have hcons : marks (shape :: shapes) = shape :: marks shapes := List.filter_cons_of_pos hmark
      rw [hcons, marked_cons, marked_cons, ih]
    | false =>
      simp only [isMark, Bool.or_eq_false_iff, decide_eq_false_iff_not] at hmark
      rw [marks_cons_of_not (by simp [isMark, hmark]), marked_cons, markText_other hmark.1 hmark.2, ih]
      rfl

/-- Nothing but the strings and placeholders matters to whether a string is closed by what follows it. -/
theorem calm_marks : Calm (marks shapes) ↔ Calm shapes := by
  induction shapes with
  | nil => exact Iff.rfl
  | cons shape shapes ih =>
    cases hmark : isMark shape with
    | true =>
      have hcons : marks (shape :: shapes) = shape :: marks shapes := List.filter_cons_of_pos hmark
      rw [hcons, Calm, Calm, marked_marks, ih]
    | false =>
      rw [marks_cons_of_not hmark, ih, Calm]
      simp only [isMark, Bool.or_eq_false_iff, decide_eq_false_iff_not] at hmark
      simp [hmark.1]

/-- The strings and placeholders of a list of tokens. -/
def marksOf (tokens : List Token) : List Shape := marks (tokens.map Token.shape)

theorem isMark_of_isParen {token : Token} {paren : Char} (h : token.isParen paren = true) :
    isMark token.shape = false := by
  simp [isMark, Token.shape, Parser.isParen_kind h]

theorem isMark_of_isOperator {token : Token} {symbol : String} (h : token.isOperator symbol = true) :
    isMark token.shape = false := by
  simp [isMark, Token.shape, Parser.isOperator_kind h]

theorem isMark_of_comma {token : Token} (h : token.kind = .comma) : isMark token.shape = false := by
  simp [isMark, Token.shape, h]

theorem marks_joined (h : isMark shape = false) :
    marks (shapes ++ shape :: others) = marks shapes ++ marks others := by
  rw [marks_append, marks_cons_of_not h]

theorem marks_enclosed : marks (Node.enclosed shapes) = marks shapes := by
  rw [Node.enclosed, marks_cons_of_not rfl, marks_append, marks_cons_of_not rfl]
  exact List.append_nil _

theorem marksOf_joined {first second : List Token} {sign : Token} (h : isMark sign.shape = false) :
    marksOf (first ++ sign :: second) = marksOf first ++ marksOf second := by
  rw [marksOf, List.map_append, List.map_cons, marks_joined h]
  rfl

theorem marksOf_enclosed {inner : List Token} {opened closed : Token} (hopened : opened.isParen '(' = true)
    (hclosed : closed.isParen ')' = true) : marksOf (opened :: (inner ++ [closed])) = marksOf inner := by
  rw [marksOf, List.map_cons, marks_cons_of_not (isMark_of_isParen hopened)]
  exact (marksOf_joined (isMark_of_isParen hclosed)).trans (List.append_nil _)

end Token

namespace Grammar
open Node

theorem listShapes_cons {node : Node} {nodes : List Node} (h : nodes ≠ []) :
    listShapes (node :: nodes) = node.shapes ++ (.comma, ",") :: listShapes nodes := by
  obtain ⟨next, rest, rfl⟩ := List.exists_cons_of_ne_nil h
  rfl

theorem marks_listShapes_cons {node : Node} {nodes : List Node} (h : nodes ≠ []) :
    marks (listShapes (node :: nodes)) = marks node.shapes ++ marks (listShapes nodes) := by
  rw [listShapes_cons h, marks_joined rfl]

theorem Spells.marks {token : Token} {node : Node} (h : Spells token node) :
    marksOf [token] = Token.marks node.shapes := by
  obtain ⟨kind, text, position⟩ := token
  cases h with
  | number hkind hvalue =>
    obtain rfl : kind = .number := hkind
    obtain ⟨n, rfl⟩ | ⟨x, rfl⟩ := numberOf?_kind hvalue
    · rfl
    · rfl
  | string hkind =>
    obtain rfl : kind = .string := hkind
    rfl
  | null hkind =>
    obtain rfl : kind = .null := hkind
    rfl
  | placeholder hkind =>
    obtain rfl : kind = .placeholder := hkind
    rfl
  | identifier hkind =>
    obtain rfl : kind = .identifier := hkind
    rfl

/-- A field that is turned to the left is no string and no placeholder. -/
theorem Arranged.marks {left node : Node} {operator : Comparison} {right : Operand}
    (h : Arranged left operator right node) :
    Token.marks node.shapes = Token.marks left.shapes ++ Token.marks (operandShapes right) := by
  cases h with
  | list => exact marks_joined rfl
  | range => exact marks_joined rfl
  | kept => exact marks_joined rfl
  | @turned right hfield _ _ =>
    have hright : Token.marks right.shapes = [] := by
      cases right with
      | field name => rfl
      | _ => cases hfield
    rw [Node.compare, shapes, marks_joined rfl, operandShapes, operandShapes, hright, List.append_nil]
    rfl

/-- A tree is spelled with the strings and placeholders of the tokens that it was read from, in their order. -/
theorem compositional_marks : Compositional (fun used node => marksOf used = Token.marks node.shapes)
    (fun used nodes => nodes ≠ [] ∧ marksOf used = Token.marks (listShapes nodes))
    (fun used right => marksOf used = Token.marks (operandShapes right)) where
  value h := h.marks
  group hopened h hclosed := (marksOf_enclosed hopened hclosed).trans h
  call hkind hopened h _ hclosed := by
    rw [marksOf, List.map_cons, marks_cons_of_not (by simp [isMark, Token.shape, hkind]), shapes, marks_cons_of_not rfl,
      marks_enclosed, ← h.2]
    exact marksOf_enclosed hopened hclosed
  logical hfirst hsign hsecond := by
    rw [marksOf_joined (isMark_of_isOperator hsign), hfirst, hsecond, shapes, marks_enclosed, marks_joined rfl]
  compared hfirst _ hsign _ hothers hnode := by
    rw [marksOf_joined (isMark_of_isOperator hsign), hfirst, hothers, hnode.marks]
  one h := ⟨List.cons_ne_nil _ _, h⟩
  more hfirst hcomma hothers := by
    refine ⟨List.cons_ne_nil _ _, ?_⟩
    rw [marksOf_joined (isMark_of_comma hcomma), hfirst, hothers.2, marks_listShapes_cons hothers.1]
  list hopened h hclosed := by rw [marksOf_enclosed hopened hclosed, operandShapes, marks_enclosed, h.2]
  range hlow hsign hhigh := by
    rw [marksOf_joined (isMark_of_isOperator hsign), hlow, hhigh, operandShapes, marks_joined rfl]
  single h := h

theorem Expression.marks {tokens : List Token} {node : Node} (h : Expression tokens node) :
    marksOf tokens = Token.marks node.shapes :=
  compositional_marks.expression h

end Grammar

end GridFilter
