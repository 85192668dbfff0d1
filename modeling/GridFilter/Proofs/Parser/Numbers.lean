import GridFilter.Proofs.Conversion.Names
import GridFilter.Proofs.Number.Overflow
import GridFilter.Proofs.Parser.Complete
import GridFilter.Proofs.Parser.Depth
import GridFilter.Proofs.Parser.Gathered
import GridFilter.Proofs.Parser.Sound

/-! The numbers of a filter. A tree has those of its number tokens, which are read however large they are, so that a literal
    is infinite where its token is out of range, and JSON shows null for it. -/

namespace GridFilter

/-! ### Number tokens -/

namespace Token
open Lexeme

variable {position : Nat} {text : List Char} {tokens : List Token} {token : Token}

/-- The value of a number token. -/
def number? (token : Token) : Option Value :=
  if token.kind = .number then Parser.numberOf? token.text.toList else none

/-- The number tokens lie below the midpoint of the last finite double and 2^1024. -/
def InRange (tokens : List Token) : Prop :=
  ∀ token ∈ tokens, token.kind = .number → Decimal.magnitude token.text.toList < 2 ^ 1024 - 2 ^ 970

theorem number?_of_kind {kind : TokenKind} (h : token.kind = kind) (hkind : kind ≠ .number) : token.number? = none := by
  rw [number?, h, if_neg hkind]

theorem Lexes.isNumber (h : Lexes position text tokens) :
    ∀ token ∈ tokens, token.kind = .number → IsNumber token.text.toList := by
  induction h with
  | nil => nofun
  | blank _ _ ih => exact ih
  | @token position text rest lexeme tokens hfirst _ ih =>
    obtain ⟨-, -, hspelled⟩ := first?_spec hfirst
    refine List.forall_mem_cons.mpr ⟨fun hkind => ?_, ih⟩
    obtain ⟨kind, text, span⟩ := lexeme
    obtain rfl : kind = .number := hkind
    obtain ⟨rfl, hnumber⟩ : text = .ofList span ∧ IsNumber span := hspelled
    rwa [String.toList_ofList]

/-- Every number token has a value, which is finite if the token is in range. -/
theorem finite_numbers (h : Lexes position text tokens) :
    (∀ value ∈ tokens.filterMap number?, value.Finite) ↔ InRange tokens := by
  constructor
  · intro hfinite token hmem hkind
    obtain ⟨value, hvalue, hrange⟩ := Decimal.finite_of_isNumber (h.isNumber token hmem hkind)
    refine hrange.mp (hfinite value (List.mem_filterMap.mpr ⟨token, hmem, ?_⟩))
    rw [number?, if_pos hkind, hvalue]
  · intro hrange value hmem
    obtain ⟨token, htoken, hvalue⟩ := List.mem_filterMap.mp hmem
    obtain ⟨hkind, hvalue⟩ := Option.ite_none_right_eq_some.mp hvalue
    obtain ⟨found, hfound, hfinite⟩ := Decimal.finite_of_isNumber (h.isNumber token htoken hkind)
    obtain rfl := Option.some.inj (hfound.symm.trans hvalue)
    exact hfinite.mpr (hrange token htoken hkind)

end Token

/-! ### Number literals -/

namespace Node

/-- The value of a number literal. -/
def number? : Node → Option Value
  | .literal (.int n) => some (.int n)
  | .literal (.float x) => some (.float x)
  | _ => none

/-- The values of the number literals in a tree, in order. -/
def numbers (node : Node) : List Value := node.parts.filterMap number?

variable {node : Node}

theorem float_mem_numbers {x : Binary64} : .float x ∈ node.numbers ↔ .literal (.float x) ∈ node.parts := by
  constructor
  · intro h
    obtain ⟨part, hpart, hvalue⟩ := List.mem_filterMap.mp h
    obtain rfl : part = .literal (.float x) := by
      unfold number? at hvalue
      split at hvalue <;> cases hvalue
      rfl
    exact hpart
  · intro h
    exact List.mem_filterMap.mpr ⟨_, h, rfl⟩

theorem finite_numbers_iff :
    (∀ value ∈ node.numbers, value.Finite) ↔ ∀ x, .literal (.float x) ∈ node.parts → x.isFinite = true := by
  constructor
  · intro h x hx
    exact h _ (float_mem_numbers.mpr hx) x rfl
  · rintro h value hmem x rfl
    exact h x (float_mem_numbers.mp hmem)

/-- JSON shows null for the numbers that are not finite. -/
theorem toJson_number {value : Value} (h : value ∈ node.numbers) : (Grid.value value).toJson ≠ .null ↔ value.Finite := by
  obtain ⟨part, -, hvalue⟩ := List.mem_filterMap.mp h
  unfold number? at hvalue
  split at hvalue
  · next n =>
    obtain rfl := Option.some.inj hvalue
    exact ⟨fun _ => nofun, fun _ => nofun⟩
  · next x =>
    obtain rfl := Option.some.inj hvalue
    have hshown : (Grid.value (.float x)).toJson = Json.ofDouble x := rfl
    rw [Value.finite_float_iff, hshown, Json.ofDouble]
    cases x.isFinite with
    | true => exact ⟨fun _ => rfl, fun _ => nofun⟩
    | false => exact ⟨fun hnull => absurd rfl hnull, nofun⟩
  · cases hvalue

end Node

theorem Grammar.gathers_numbers : Gathers Node.number? Token.number? where
  spelled h := by
    cases h with
    | number hkind hvalue =>
      rw [Token.number?, if_pos hkind, hvalue]
      rcases numberOf?_kind hvalue with ⟨n, rfl⟩ | ⟨x, rfl⟩
      · rfl
      · rfl
    | string hkind => exact (Token.number?_of_kind hkind (by decide)).symm
    | null hkind => exact (Token.number?_of_kind hkind (by decide)).symm
    | placeholder hkind => exact (Token.number?_of_kind hkind (by decide)).symm
    | identifier hkind => exact (Token.number?_of_kind hkind (by decide)).symm
  mark h := Token.number?_of_kind rfl fun hkind => absurd (hkind ▸ h) (by decide)
  other {node} h := by
    cases node with
    | literal value => cases h
    | _ => rfl

namespace ParsedFilter

variable {maxDepth : Nat} {known : List String} {text : String} {parsed : ParsedFilter}

/-- A filter has a number literal for every number token. -/
theorem numbers_of_ofTokens {tokens : List Token} (h : ofTokens maxDepth known tokens = .ok parsed) :
    parsed.ast.numbers = tokens.filterMap Token.number? :=
  Grammar.gathers_numbers.compositional.expression (bounded_of_ofTokens h).plain

/-! ### A number without end -/

/-- The digits of 10^309. -/
def vastDigits : List Char := '1' :: List.replicate 309 '0'

/-- A comparison with that number. -/
def vastText : String := .ofList ('A' :: ' ' :: '=' :: ' ' :: vastDigits)

/-- Its tokens. -/
def vastTokens : List Token :=
  [⟨.identifier, "A", 0⟩, ⟨.operator, "=", 2⟩, ⟨.number, .ofList vastDigits, 4⟩]

/-- Its tree. -/
def vastTree : Node := .compare (.field "A") .eq (.literal (.float (.infinity false)))

theorem isDigit_vast : ∀ c ∈ vastDigits, c.isDigit = true :=
  List.forall_mem_cons.mpr ⟨by decide, Decimal.isDigit_of_zeros⟩

theorem numberOf?_vast : Parser.numberOf? vastDigits = some (.float (.infinity false)) := by
  have hpoint : '.' ∉ vastDigits := fun hmem => absurd (isDigit_vast _ hmem) (by decide)
  have hint : Decimal.int? vastDigits = none := by decide +kernel
  have hdouble : Decimal.double? vastDigits = some (.infinity false) := by decide +kernel
  rw [Parser.numberOf?, if_neg hpoint, hint, hdouble]
  rfl

theorem lexes_vast : Token.Lexes 0 vastText.toList vastTokens := by
  have hnumber : Lexeme.IsNumber vastDigits :=
    ⟨[], vastDigits, [], by simp, .inl rfl, nofun, isDigit_vast, .inl rfl⟩
  have hlast : Lexeme.first? (vastDigits ++ []) = some (⟨.number, .ofList vastDigits, vastDigits⟩, []) :=
    Lexeme.first?_number hnumber rfl
  rw [List.append_nil] at hlast
  rw [vastText, String.toList_ofList]
  have hname : Lexeme.first? ('A' :: ' ' :: '=' :: ' ' :: vastDigits) =
      some (⟨.identifier, "A", ['A']⟩, ' ' :: '=' :: ' ' :: vastDigits) := rfl
  have hsign : Lexeme.first? ('=' :: ' ' :: vastDigits) = some (⟨.operator, "=", ['=']⟩, ' ' :: vastDigits) := rfl
  exact .token hname (.blank rfl (.token hsign (.blank rfl (.token hlast .nil))))

theorem expression_vast : Grammar.Expression vastTokens vastTree := by
  have hvalue : Parser.numberOf? (String.ofList vastDigits).toList = some (.float (.infinity false)) := by
    rw [String.toList_ofList, numberOf?_vast]
  have hcomparand : Grammar.Comparand [⟨.number, .ofList vastDigits, 4⟩] (.literal (.float (.infinity false))) :=
    .value (.number rfl hvalue)
  have hfield : Grammar.Term [⟨.identifier, "A", 0⟩] (.field "A") := .value (.identifier rfl)
  have hright : Grammar.RightSide .eq [⟨.number, .ofList vastDigits, 4⟩] (.single (.literal (.float (.infinity false)))) :=
    .single (by decide) (by decide) (by decide) hcomparand
  have hsign : (⟨.operator, "=", 2⟩ : Token).isOperator Comparison.eq.symbol = true := rfl
  exact .conjunction (.condition (.compared hfield rfl hsign hright (.kept nofun)))

theorem ofText_vast : ofText 256 [] vastText = .ok (some ⟨vastTree, []⟩) := by
  have hwhole : WholeQuery.isWholeQuery vastText = false := by
    rw [WholeQuery.isWholeQuery, vastText, String.toList_ofList]
    decide +kernel
  have hpeak : 4 * Token.peak vastTokens + 3 ≤ 256 := by decide
  have hgives : Parser.Gives (ofTokens 256 [] vastTokens) ⟨vastTree, []⟩ := gives_ofTokens expression_vast
  have hparsed : ofTokens 256 [] vastTokens = .ok ⟨vastTree, []⟩ := hgives.resolve_left (not_deep_ofTokens hpeak)
  exact ofText_eq_some.mpr ⟨hwhole, vastTokens, Token.ofChars_eq_ok.mpr lexes_vast, hparsed⟩

/-! ### Numbers of a filter -/

/-- The number literals of a filter are its number tokens. All of them are finite, and JSON shows null for none, if and only
    if every number token is in range. -/
theorem numbers_of_ofText (h : ofText maxDepth known text = .ok (some parsed)) : ∃ tokens,
    Token.ofText text = .ok tokens ∧ parsed.ast.numbers = tokens.filterMap Token.number? ∧
      ((∀ x, .literal (.float x) ∈ parsed.ast.parts → x.isFinite = true) ↔ Token.InRange tokens) ∧
      ((∀ value ∈ parsed.ast.numbers, (Grid.value value).toJson ≠ .null) ↔ Token.InRange tokens) := by
  obtain ⟨-, tokens, htokens, hparsed⟩ := ofText_eq_some.mp h
  have hnumbers := numbers_of_ofTokens hparsed
  have hrange : (∀ value ∈ parsed.ast.numbers, value.Finite) ↔ Token.InRange tokens := by
    rw [hnumbers, Token.finite_numbers (Token.ofChars_eq_ok.mp htokens)]
  refine ⟨tokens, htokens, hnumbers, ?_, ?_⟩
  · rw [← Node.finite_numbers_iff, hrange]
  · rw [← hrange]
    exact forall₂_congr fun _ hvalue => Node.toJson_number hvalue

theorem numbers_of_ofText_vast : ofText 256 [] vastText = .ok (some ⟨vastTree, []⟩) ∧ ∃ tokens,
    Token.ofText vastText = .ok tokens ∧ vastTree.numbers = tokens.filterMap Token.number? ∧
      ((∀ x, .literal (.float x) ∈ vastTree.parts → x.isFinite = true) ↔ Token.InRange tokens) ∧
      ((∀ value ∈ vastTree.numbers, (Grid.value value).toJson ≠ .null) ↔ Token.InRange tokens) :=
  ⟨ofText_vast, numbers_of_ofText ofText_vast⟩

/-- Digits out of range make a filter all the same, with an infinite literal that JSON shows as null. -/
theorem ofText_infinite : ofText 256 [] vastText = .ok (some ⟨vastTree, []⟩) ∧
    .literal (.float (.infinity false)) ∈ vastTree.parts ∧ (Binary64.infinity false).isFinite = false ∧
    (vastTree.convertWith {} fun _ => none).toJson = .array [.string "A", .string "=", .null] := by
  refine ⟨ofText_vast, ?_, rfl, rfl⟩
  simp [vastTree, Node.compare, Node.parts, Node.operandParts]

end ParsedFilter

end GridFilter
