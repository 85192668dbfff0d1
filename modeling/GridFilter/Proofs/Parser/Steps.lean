import GridFilter.Proofs.Parser.Grammar

/-! What the steps of the parser that read no expression succeed on. -/

namespace GridFilter.Parser
open Grammar

variable {extent : Extent} {tokens rest : List Token} {token : Token} {node left right : Node}

theorem bind_eq_ok {α β : Type} {x : Except ParseError α} {f : α → Except ParseError β} {b : β} :
    (x >>= f) = .ok b ↔ ∃ a, x = .ok a ∧ f a = .ok b := by
  cases x with
  | error e => simp [bind, Except.bind]
  | ok a => simp [bind, Except.bind]

/-! ### Single tokens -/

theorem closing_eq_ok {opened : Nat} :
    closing opened tokens = .ok ((), rest) ↔ ∃ token, tokens = token :: rest ∧ token.isParen ')' = true := by
  cases tokens with
  | nil => simp [closing]
  | cons token others =>
    constructor
    · intro h
      by_cases hparen : token.isParen ')' = true <;> simp only [closing, hparen] at h <;> cases h
      exact ⟨token, rfl, hparen⟩
    · rintro ⟨_, ⟨⟩, hparen⟩
      simp [closing, hparen]

theorem opening_eq_ok {after : String} {opened : Nat} : opening extent after tokens = .ok (opened, rest) ↔
    ∃ token, tokens = token :: rest ∧ token.isParen '(' = true ∧ token.position = opened := by
  cases tokens with
  | nil => simp [opening]
  | cons token others =>
    constructor
    · intro h
      by_cases hparen : token.isParen '(' = true <;> simp only [opening, hparen] at h <;> cases h
      exact ⟨token, rfl, hparen, rfl⟩
    · rintro ⟨_, ⟨⟩, hparen, rfl⟩
      simp [opening, hparen]

theorem betweenAnd_eq_ok : betweenAnd extent tokens = .ok ((), rest) ↔
    ∃ token, tokens = token :: rest ∧ token.isOperator "AND" = true := by
  cases tokens with
  | nil => simp [betweenAnd]
  | cons token others =>
    constructor
    · intro h
      by_cases hand : token.isOperator "AND" = true <;> simp only [betweenAnd, hand] at h <;> cases h
      exact ⟨token, rfl, hand⟩
    · rintro ⟨_, ⟨⟩, hand⟩
      simp [betweenAnd, hand]

/-- The tokens that are values by themselves are those that the grammar names. -/
theorem leaf_eq_ok : leaf token = .ok node ↔ Spells token node := by
  constructor
  · intro h
    unfold leaf at h
    split at h
    · next hkind =>
      split at h
      · next value hvalue =>
        cases h
        exact .number hkind hvalue
      · cases h
    · next hkind => cases h; exact .string hkind
    · next hkind => cases h; exact .null hkind
    · next hkind => cases h; exact .placeholder hkind
    · next hkind => cases h; exact .identifier hkind
    all_goals cases h
  · intro h
    cases h with
    | number hkind hvalue => simp [leaf, hkind, hvalue]
    | string hkind => simp [leaf, hkind]
    | null hkind => simp [leaf, hkind]
    | placeholder hkind => simp [leaf, hkind]
    | identifier hkind => simp [leaf, hkind]

theorem isParen_kind {paren : Char} (h : token.isParen paren = true) : token.kind = .paren := by
  simp only [Token.isParen, Bool.and_eq_true, beq_iff_eq] at h
  exact h.1

theorem isOperator_kind {symbol : String} (h : token.isOperator symbol = true) : token.kind = .operator := by
  simp only [Token.isOperator, Bool.and_eq_true, beq_iff_eq] at h
  exact h.1

/-! ### Operators -/

theorem ofSymbol?_eq_connective {text : String} {connective : Connective} :
    Connective.ofSymbol? text = some connective ↔ text = connective.symbol := by
  unfold Connective.ofSymbol?
  cases connective with
  | and => by_cases h : text = "AND" <;> simp [h, Connective.symbol]
  | or => by_cases h : text = "AND" <;> simp [h, Connective.symbol]

theorem ofSymbol?_eq_comparison {text : String} {operator : Comparison} :
    Comparison.ofSymbol? text = some operator ↔ text = operator.symbol := by
  constructor
  · intro h
    have hsymbol := List.find?_some h
    simpa [eq_comm] using hsymbol
  · rintro rfl
    cases operator <;> decide

theorem symbol_ne {connective : Connective} {operator : Comparison} : connective.symbol ≠ operator.symbol := by
  cases connective <;> cases operator <;> decide

theorem ofToken?_eq_connective {connective : Connective} :
    BinaryOperator.ofToken? token = some (.connective connective) ↔ token.isOperator connective.symbol = true := by
  by_cases hkind : token.kind = .operator
  · cases h : Connective.ofSymbol? token.text with
    | none =>
      have hne : token.text ≠ connective.symbol := fun htext => by simp [ofSymbol?_eq_connective.mpr htext] at h
      simp [BinaryOperator.ofToken?, hkind, h, Token.isOperator, hne]
    | some found =>
      rw [ofSymbol?_eq_connective] at h
      cases found <;> cases connective <;>
        simp [BinaryOperator.ofToken?, hkind, h, Connective.symbol, Connective.ofSymbol?, Token.isOperator]
  · simp [BinaryOperator.ofToken?, hkind, Token.isOperator]

theorem ofToken?_eq_comparison {operator : Comparison} :
    BinaryOperator.ofToken? token = some (.comparison operator) ↔ token.isOperator operator.symbol = true := by
  by_cases hkind : token.kind = .operator
  · cases h : Connective.ofSymbol? token.text with
    | none =>
      simp [BinaryOperator.ofToken?, hkind, h, Token.isOperator, ofSymbol?_eq_comparison]
    | some found =>
      have hne : token.text ≠ operator.symbol := fun htext => symbol_ne (ofSymbol?_eq_connective.mp h ▸ htext)
      simp [BinaryOperator.ofToken?, hkind, h, Token.isOperator, hne]
  · simp [BinaryOperator.ofToken?, hkind, Token.isOperator]

/-- The comparisons with one value are those that the grammar arranges. -/
theorem ordered_eq_ok {operator : Comparison} :
    ordered left operator right = .ok node ↔ Arranged left operator (.single right) node := by
  constructor
  · intro h
    unfold ordered at h
    split at h
    · cases h
    · split at h
      · next hoperator => cases h; exact .turned rfl rfl hoperator
      · next hoperator => cases h; exact .kept fun _ => ⟨rfl, by simp [hoperator]⟩
    · split at h
      · next hoperator => cases h; exact .turned rfl rfl hoperator
      · next hoperator => cases h; exact .kept fun _ => ⟨rfl, by simp [hoperator]⟩
    · next hfields hplaceholder hliteral =>
      cases h
      refine .kept fun hright => ?_
      cases right <;> simp only [Node.isField, Bool.false_eq_true] at hright
      cases left with
      | field a => exact absurd rfl (hfields a _ rfl)
      | placeholder a => exact absurd rfl (hplaceholder a _ rfl)
      | literal v => exact absurd rfl (hliteral v _ rfl)
      | _ => simp [Node.isField, Node.isConstant]
  · intro h
    cases h with
    | kept h =>
      unfold ordered
      split
      · simp [Node.isField] at h
      · rw [if_neg]
        simpa [Node.isField, Node.isConstant] using h
      · rw [if_neg]
        simpa [Node.isField, Node.isConstant] using h
      · rfl
    | turned hright hleft hoperator =>
      cases right <;> simp only [Node.isField, Bool.false_eq_true] at hright
      cases left <;> simp_all [Node.isConstant, ordered]

end GridFilter.Parser
