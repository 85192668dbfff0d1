import GridFilter.Proofs.Node.Printed
import GridFilter.Proofs.Node.Rereading
import GridFilter.Proofs.Parser.Complete

/-! Printing a filter and reading it again gives the same tree. -/

namespace GridFilter.ParsedFilter
open Node

variable {text : String} {tokens : List Token} {maxDepth : Nat} {known : List String} {parsed : ParsedFilter}

/-- The spelling of a tree that was read from a text has tokens again, and at every depth that the depth of the tree
    calls for they are read as an equal tree: provided that its numbers are finite, that its placeholders have names,
    and that no field `NOT` stands in front of `IN` or `LIKE`. -/
theorem ofTokens_spelling (htokens : Token.ofText text = .ok tokens)
    (hparsed : ofTokens maxDepth known tokens = .ok parsed)
    (hfinite : ∀ x, .literal (.float x) ∈ parsed.ast.parts → x.isFinite = true)
    (hnamed : .placeholder "" ∉ parsed.ast.parts)
    (hnot : ∀ name operator operand, .comparison (.field name) operator operand ∈ parsed.ast.parts →
      operator = .isIn ∨ operator = .like → Text.sameLetters name "NOT" = false) :
    ∃ again, Token.ofText parsed.ast.spelling = .ok again ∧
      ∀ maxDepth' known', 4 * parsed.ast.depth + 3 ≤ maxDepth' →
        ∃ reparsed, ofTokens maxDepth' known' again = .ok reparsed ∧ reparsed.ast.same parsed.ast = true := by
  have hlexes : Token.Lexes 0 text.toList tokens := Token.ofChars_eq_ok.mp htokens
  have hexpression := expression_of_ofTokens hparsed
  have hprintable : parsed.ast.Printable := by
    intro part hpart
    refine ⟨hexpression.built hlexes.sourced part hpart, ?_⟩
    unfold Plain
    split
    · exact hfinite _ hpart
    · rintro rfl
      exact hnamed hpart
    · exact hnot _ _ _ hpart
    · trivial
  -- Turning a comparison moves a field only, so the spelling has the text's strings and placeholders in their order.
  have hcalm : Token.Calm parsed.ast.shapes := by
    rw [← Token.calm_marks, ← hexpression.marks, Token.marksOf, Token.calm_marks]
    exact hlexes.calm.1
  have hlaid := laid parsed.ast hprintable [] [] (ends_of_delimited Lexeme.delimited_nil) .nil
  rw [List.append_nil, List.append_nil] at hlaid
  obtain ⟨again, hagain, hshapes⟩ := (hlaid.reads hcalm).1 0
  obtain ⟨hnests, other, hsame, hother⟩ := rereads parsed.ast hprintable again hshapes
  refine ⟨again, Token.ofChars_eq_ok.mpr hagain, fun maxDepth' known' hdepth => ?_⟩
  have hpeak : Token.peak again ≤ parsed.ast.depth := by simpa [Token.peak] using hnests []
  have hgives : Parser.Gives (ofTokens maxDepth' known' again) ⟨other, Text.distinct (known' ++ other.placeholders)⟩ :=
    gives_ofTokens (.conjunction (.condition hother.condition))
  exact ⟨_, hgives.resolve_left (not_deep_ofTokens (by omega)), hsame⟩

/-- A filter with a comparison to turn, a quote to double, a zero to drop, a brace that nothing closes, and a field
    that is named as a word of the language is. -/
def turnedText : String := "1.50 < size AND (not IS NOT 'it''s' OR code IN (-7, ISNULL({a b}, '\x7b')))"

/-- Its tokens. -/
def turnedTokens : List Token := [⟨.number, "1.50", 0⟩, ⟨.operator, "<", 5⟩, ⟨.identifier, "size", 7⟩,
  ⟨.operator, "AND", 12⟩, ⟨.paren, "(", 16⟩, ⟨.identifier, "not", 17⟩, ⟨.operator, "!=", 21⟩, ⟨.string, "it's", 28⟩,
  ⟨.operator, "OR", 36⟩, ⟨.identifier, "code", 39⟩, ⟨.operator, "IN", 44⟩, ⟨.paren, "(", 47⟩, ⟨.number, "-7", 48⟩,
  ⟨.comma, ",", 50⟩, ⟨.function, "ISNULL", 52⟩, ⟨.paren, "(", 58⟩, ⟨.placeholder, "a b", 59⟩, ⟨.comma, ",", 64⟩,
  ⟨.string, "\x7b", 66⟩, ⟨.paren, ")", 69⟩, ⟨.paren, ")", 70⟩, ⟨.paren, ")", 71⟩]

/-- Its tree and its placeholder. -/
def turned : ParsedFilter where
  ast := .logical .and (.compare (.field "size") .gt (.literal (.float (.ofDecimal false 150 (-2)))))
    (.logical .or (.compare (.field "not") .ne (.literal (.string "it's")))
      (.comparison (.field "code") .isIn
        (.list [.literal (.int (-7)), .isNull [.placeholder "a b", .literal (.string "\x7b")]])))
  names := ["a b"]

theorem ofTokens_spelling_turned : Token.ofText turnedText = .ok turnedTokens ∧
    ofTokens 256 [] turnedTokens = .ok turned ∧ ∃ again, Token.ofText turned.ast.spelling = .ok again ∧
      ∀ maxDepth' known', 4 * turned.ast.depth + 3 ≤ maxDepth' →
        ∃ reparsed, ofTokens maxDepth' known' again = .ok reparsed ∧ reparsed.ast.same turned.ast = true := by
  have htokens : Token.ofText turnedText = .ok turnedTokens := by rfl
  have hparsed : ofTokens 256 [] turnedTokens = .ok turned := by
    rw [ofTokens_eq]
    rfl
  refine ⟨htokens, hparsed, ofTokens_spelling htokens hparsed ?_ ?_ ?_⟩
  · intro x hx
    simp [turned, parts, operandParts, listParts, Node.compare] at hx
    rw [hx]
    decide +kernel
  · simp [turned, parts, operandParts, listParts, Node.compare]
  · intro name operator operand hmem
    simp [turned, parts, operandParts, listParts, Node.compare] at hmem
    rcases hmem with ⟨rfl, -, -⟩ | ⟨-, rfl, -⟩ | ⟨rfl, -, -⟩
    · exact fun _ => rfl
    · simp
    · exact fun _ => rfl

end GridFilter.ParsedFilter
