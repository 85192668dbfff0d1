import GridFilter.Proofs.Node.Shapes
import GridFilter.Proofs.Number.Literals

/-! The spelling of a tree is its tokens laid out with blanks, so that no two of them run together. -/

namespace GridFilter
open Token Lexeme

variable {text rest : List Char} {shapes : List Shape} {c first : Char} {word : List Char}

/-! ### What may follow a token -/

namespace Lexeme

/-- A gap of one blank leaves the character behind it as the first one of the word. -/
theorem Follows.head (h : Follows (first :: word) (' ' :: c :: text)) (hc : isGap c = false) : c.toUpper = first := by
  have hhead : ∀ d ∈ (c :: text).head?, isGap d = false := by
    rintro d ⟨⟩
    exact hc
  obtain ⟨span, rest, htext, hupper, -⟩ := h.behind_blank hhead
  cases span with
  | nil => cases hupper
  | cons d span =>
    obtain ⟨rfl, -⟩ := List.cons.inj htext
    exact (List.cons.inj hupper).1

theorem parted_word (hgap : isGap c = false) (hi : c.toUpper ≠ 'I') (hl : c.toUpper ≠ 'L') :
    Parted (' ' :: c :: text) :=
  ⟨fun h => hi (h.head hgap), fun h => hl (h.head hgap)⟩

theorem parted_of_head (h : ∀ c ∈ text.head?, isGap c = false) : Parted text :=
  ⟨not_follows_of_head h _, not_follows_of_head h _⟩

theorem parted_comparison {operator : Comparison} (hin : operator ≠ .isIn) (hlike : operator ≠ .like) :
    Parted (' ' :: (operator.symbol.toList ++ text)) := by
  cases operator with
  | isIn => exact absurd rfl hin
  | like => exact absurd rfl hlike
  | _ => exact parted_word (by decide) (by decide) (by decide)

theorem parted_connective (connective : Connective) : Parted (' ' :: (connective.symbol.toList ++ text)) := by
  cases connective with
  | and => exact parted_word (by decide) (by decide) (by decide)
  | or => exact parted_word (by decide) (by decide) (by decide)

/-- What may follow any value: the end, a blank, a comma or a closing parenthesis. -/
structure Delimited (rest : List Char) : Prop where
  word : endsWord rest = true
  quote : rest.head? ≠ some '\''
  parted : Parted rest

theorem delimited_nil : Delimited [] := ⟨rfl, by simp, parted_of_head (by simp)⟩

theorem delimited_closing : Delimited (')' :: rest) := ⟨rfl, by simp, parted_of_head (by simp [isGap])⟩

theorem delimited_comma : Delimited (',' :: rest) := ⟨rfl, by simp, parted_of_head (by simp [isGap])⟩

theorem delimited_connective (connective : Connective) : Delimited (' ' :: (connective.symbol.toList ++ rest)) :=
  ⟨rfl, by simp, parted_connective connective⟩

end Lexeme

/-! ### Signs -/

namespace Token

theorem laid_opening (h : Laid rest shapes) : Laid ('(' :: rest) ((.paren, "(") :: shapes) :=
  @Laid.token (.paren, "(") rest shapes rfl h

theorem laid_closing (h : Laid rest shapes) : Laid (')' :: rest) ((.paren, ")") :: shapes) :=
  @Laid.token (.paren, ")") rest shapes rfl h

theorem laid_comma (h : Laid rest shapes) : Laid (',' :: ' ' :: rest) ((.comma, ",") :: shapes) :=
  @Laid.token (.comma, ",") (' ' :: rest) shapes rfl h.blank

theorem laid_connective (connective : Connective) (h : Laid rest shapes) :
    Laid (' ' :: (connective.symbol.toList ++ ' ' :: rest)) (Node.sign connective.symbol :: shapes) := by
  refine (@Laid.token (Node.sign connective.symbol) (' ' :: rest) shapes ?_ h.blank).blank
  cases connective <;> rfl

theorem laid_comparison (operator : Comparison) (h : Laid rest shapes) :
    Laid (' ' :: (operator.symbol.toList ++ ' ' :: rest)) (Node.sign operator.symbol :: shapes) := by
  refine (@Laid.token (Node.sign operator.symbol) (' ' :: rest) shapes ?_ h.blank).blank
  cases operator <;> rfl

theorem laid_function (h : Laid ('(' :: rest) shapes) :
    Laid (Node.functionName.toList ++ '(' :: rest) ((.function, Node.functionName) :: shapes) :=
  @Laid.token (.function, Node.functionName) ('(' :: rest) shapes rfl h

end Token

/-! ### Leaves -/

namespace Node

/-- A tree whose last token must not be followed by the second word of an operator. -/
def EndsInNot : Node → Prop
  | .field name => upper name.toList = ['N', 'O', 'T']
  | .comparison .. => True
  | _ => False

/-- What may follow the spelling of a tree. -/
structure Ends (node : Node) (rest : List Char) : Prop where
  word : endsWord rest = true
  quote : rest.head? ≠ some '\''
  parted : node.EndsInNot → Parted rest

variable {node : Node} {value : Value} {name : String}

theorem ends_of_delimited (h : Delimited rest) : node.Ends rest := ⟨h.word, h.quote, fun _ => h.parted⟩

theorem laid_null (hend : endsWord rest = true) (h : Laid rest shapes) :
    Laid (Value.null.spelling.toList ++ rest) (Value.null.shape :: shapes) := by
  have hspan : IsWord "NULL".toList := by decide
  have hisNull : word? ['I', 'S', 'N', 'U', 'L', 'L'] ("NULL".toList ++ rest) = none :=
    (word?_word hspan hend (by decide)).trans (if_neg (by decide))
  have hnull : word? ['N', 'U', 'L', 'L'] ("NULL".toList ++ rest) = some ("NULL".toList, rest) :=
    (word?_word hspan hend (by decide)).trans (if_pos (by decide))
  have hfirst : first? ("NULL".toList ++ rest) = some (⟨.null, "NULL", "NULL".toList⟩, rest) := by
    rw [first?, keyword?, hisNull, hnull]
    rfl
  exact @Laid.token (.null, "NULL") rest shapes hfirst h

theorem laid_number (hnumber : IsNumber value.spelling.toList) (hend : endsWord rest = true) (h : Laid rest shapes) :
    Laid (value.spelling.toList ++ rest) ((.number, value.spelling) :: shapes) :=
  @Laid.token (.number, value.spelling) rest shapes ⟨hnumber, hend⟩ h

theorem laid_literal (hformed : Formed (.literal value)) (hplain : Plain (.literal value))
    (hends : Ends (.literal value) rest) (h : Laid rest shapes) :
    Laid (value.spelling.toList ++ rest) (value.shape :: shapes) := by
  cases value with
  | null => exact laid_null hends.word h
  | int n => exact laid_number Value.readsBack_int.1 hends.word h
  | float x => exact laid_number (Value.readsBack_float hplain).1 hends.word h
  | string s =>
    rw [Value.spelling, Value.quoted, String.toList_ofList]
    exact @Laid.token (.string, s) rest shapes ⟨hformed, hends.quote⟩ h
  | bool b => cases hformed
  | array items => cases hformed
  | object entries => cases hformed

theorem laid_field (hname : IsName name.toList) (hends : Ends (.field name) rest) (h : Laid rest shapes) :
    Laid (name.toList ++ rest) ((.identifier, name) :: shapes) :=
  @Laid.token (.identifier, name) rest shapes ⟨hname, hends.word, hends.parted⟩ h

theorem laid_placeholder (hformed : Formed (.placeholder name)) (hplain : Plain (.placeholder name))
    (hends : Ends (.placeholder name) rest) (h : Laid rest shapes) :
    Laid ((spelling (.placeholder name)).toList ++ rest) ((.placeholder, name) :: shapes) := by
  have htext : (spelling (.placeholder name)).toList = Text.inBraces name.toList := by simp [spelling, Text.inBraces]
  have hne : name.toList ≠ [] := fun hnil => hplain (String.toList_eq_nil_iff.mp hnil)
  rw [htext]
  exact @Laid.token (.placeholder, name) rest shapes ⟨hne, hformed.1, hformed.2, hends.quote⟩ h

/-! ### Trees -/

/-- A field `NOT` stands in front of no word that makes an operator of it. -/
theorem ends_subject {subject : Node} {operator : Comparison} {operand : Operand}
    (hvalue : subject.isCondition = false) (hplain : Plain (.comparison subject operator operand)) :
    subject.Ends (' ' :: (operator.symbol.toList ++ rest)) := by
  refine ⟨rfl, by simp, fun hnot => ?_⟩
  cases subject with
  | field name =>
    have hletters : Text.sameLetters name "NOT" = true := sameLetters_of_upper (hnot.trans (by decide))
    have hoperator (h : operator = .isIn ∨ operator = .like) : False := by
      have hother := hplain h
      rw [hletters] at hother
      cases hother
    exact parted_comparison (fun h => hoperator (.inl h)) fun h => hoperator (.inr h)
  | comparison => cases hvalue
  | _ => cases hnot

mutual

/-- The spelling of a tree is laid out as its tokens, in front of whatever may follow it. -/
theorem laid : (node : Node) → node.Printable → ∀ rest shapes, node.Ends rest → Laid rest shapes →
    Laid (node.spelling.toList ++ rest) (node.shapes ++ shapes)
  | .logical connective left right, hnode, rest, shapes, _, h => by
    obtain ⟨hleft, hright⟩ := printable_logical hnode
    have hsecond := laid right hright _ _ (ends_of_delimited delimited_closing) (laid_closing h)
    have hfirst := laid left hleft _ _ (ends_of_delimited (delimited_connective connective))
      (laid_connective connective hsecond)
    simpa [spelling, Node.shapes, enclosed] using laid_opening hfirst
  | .comparison subject operator operand, hnode, rest, shapes, hends, h => by
    obtain ⟨⟨⟨hvalue, -⟩, hplain⟩, hsubject, hoperand⟩ := printable_comparison hnode
    have hsecond := operand_laid operand hoperand _ _ ⟨hends.word, hends.quote, hends.parted trivial⟩ h
    have hfirst := laid subject hsubject _ _ (ends_subject hvalue hplain) (laid_comparison operator hsecond)
    simpa [spelling, Node.shapes] using hfirst
  | .isNull arguments, hnode, rest, shapes, _, h => by
    have hlist := list_laid arguments (printable_isNull hnode).2 _ _ delimited_closing (laid_closing h)
    simpa [spelling, Node.shapes, enclosed] using laid_function (laid_opening hlist)
  | .field name, hnode, rest, shapes, hends, h => by
    obtain ⟨hformed, -⟩ := hnode (.field name) (by simp [parts])
    exact laid_field hformed hends h
  | .literal value, hnode, rest, shapes, hends, h => by
    obtain ⟨hformed, hplain⟩ := hnode (.literal value) (by simp [parts])
    exact laid_literal hformed hplain hends h
  | .placeholder name, hnode, rest, shapes, hends, h => by
    obtain ⟨hformed, hplain⟩ := hnode (.placeholder name) (by simp [parts])
    exact laid_placeholder hformed hplain hends h

theorem operand_laid : (operand : Operand) → OperandPrintable operand → ∀ rest shapes, Delimited rest →
    Laid rest shapes → Laid ((operandSpelling operand).toList ++ rest) (operandShapes operand ++ shapes)
  | .single node, hoperand, rest, shapes, hends, h => laid node hoperand rest shapes (ends_of_delimited hends) h
  | .list items, hoperand, rest, shapes, hends, h => by
    have hlist := list_laid items hoperand _ _ delimited_closing (laid_closing h)
    simpa [operandSpelling, operandShapes, enclosed] using laid_opening hlist
  | .range low high, hoperand, rest, shapes, hends, h => by
    obtain ⟨hlow, hhigh⟩ := printable_range hoperand
    have hsecond := laid high hhigh rest shapes (ends_of_delimited hends) h
    have hfirst := laid low hlow _ _ (ends_of_delimited (delimited_connective .and)) (laid_connective .and hsecond)
    simpa [operandSpelling, operandShapes, Connective.symbol] using hfirst

theorem list_laid : (items : List Node) → ListPrintable items → ∀ rest shapes, Delimited rest → Laid rest shapes →
    Laid ((", ".intercalate (spellings items)).toList ++ rest) (listShapes items ++ shapes)
  | [], _, rest, shapes, _, h => h
  | [item], hitems, rest, shapes, hends, h => by
    have hitem := laid item (printable_cons hitems).1 rest shapes (ends_of_delimited hends) h
    simpa [spellings, listShapes] using hitem
  | item :: next :: others, hitems, rest, shapes, hends, h => by
    obtain ⟨hitem, hothers⟩ := printable_cons hitems
    have hsecond := list_laid (next :: others) hothers rest shapes hends h
    have hfirst := laid item hitem _ _ (ends_of_delimited delimited_comma) (laid_comma hsecond)
    rw [spellings, spellings, String.intercalate_cons_cons]
    simpa [listShapes, spellings] using hfirst

end

end Node

end GridFilter
