import GridFilter.Proofs.Parser.Sound

/-! How deep the parser goes. Four levels for each parenthesis that is open at once, and three more, are enough for
    any list of tokens, whatever the length of its chains and lists. -/

namespace GridFilter

namespace Token

/-- The most parentheses that are open at once; those that close none do not count. -/
def peak : List Token → Nat
  | [] => 0
  | token :: rest =>
    if token.isParen '(' then peak rest + 1 else if token.isParen ')' then peak rest - 1 else peak rest

theorem isParen_open_close {token : Token} (h : token.isParen '(' = true) : token.isParen ')' = false := by
  simp only [isParen, Bool.and_eq_true, beq_iff_eq] at h
  simp [isParen, h]

theorem peak_opening {token : Token} {rest : List Token} (h : token.isParen '(' = true) :
    peak (token :: rest) = peak rest + 1 := by
  simp [peak, h]

theorem peak_closing {token : Token} {rest : List Token} (h : token.isParen ')' = true) :
    peak (token :: rest) = peak rest - 1 := by
  have hopen : ¬token.isParen '(' = true := fun hopen => by simp [isParen_open_close hopen] at h
  simp [peak, h, hopen]

theorem peak_other {token : Token} {rest : List Token} (h : token.kind ≠ .paren) :
    peak (token :: rest) = peak rest := by
  simp [peak, isParen, h]

/-- No parenthesis of a text in front of others stays closed or open. -/
def Balanced (used : List Token) : Prop := ∀ rest, peak rest ≤ peak (used ++ rest)

theorem Balanced.append {first second : List Token} (h : Balanced first) (h' : Balanced second) :
    Balanced (first ++ second) := by
  intro rest
  rw [List.append_assoc]
  exact Nat.le_trans (h' rest) (h _)

theorem Balanced.cons {token : Token} {used : List Token} (h : Balanced used) (hkind : token.kind ≠ .paren) :
    Balanced (token :: used) := by
  intro rest
  rw [List.cons_append, peak_other hkind]
  exact h rest

theorem balanced_nil : Balanced [] := fun _ => Nat.le_refl _

theorem Balanced.enclosed {inner : List Token} {opened closed : Token} (h : Balanced inner)
    (hopened : opened.isParen '(' = true) (hclosed : closed.isParen ')' = true) :
    Balanced (opened :: (inner ++ [closed])) := by
  intro rest
  have hinner := h (closed :: rest)
  rw [peak_closing hclosed] at hinner
  rw [List.cons_append, List.append_assoc, List.singleton_append, peak_opening hopened]
  omega

end Token

namespace Grammar
open Token

theorem Spells.kind_ne_paren {token : Token} {node : Node} (h : Spells token node) : token.kind ≠ .paren := by
  cases h <;> simp [*]

theorem balanced_joined {first second : List Token} {sign : Token} (hfirst : Balanced first)
    (hsign : sign.kind ≠ .paren) (hsecond : Balanced second) : Balanced (first ++ sign :: second) :=
  hfirst.append (hsecond.cons hsign)

theorem isOperator_ne_paren {token : Token} {symbol : String} (h : token.isOperator symbol = true) :
    token.kind ≠ .paren := by
  simp [Parser.isOperator_kind h]

theorem compositional_balanced :
    Compositional (fun used _ => Balanced used) (fun used _ => Balanced used) (fun used _ => Balanced used) where
  value h := balanced_nil.cons h.kind_ne_paren
  group hopened h hclosed := h.enclosed hopened hclosed
  call hkind hopened h _ hclosed := (h.enclosed hopened hclosed).cons (by simp [hkind])
  logical hfirst hsign hsecond := balanced_joined hfirst (isOperator_ne_paren hsign) hsecond
  compared hfirst _ hsign _ hothers _ := balanced_joined hfirst (isOperator_ne_paren hsign) hothers
  one h := h
  more hfirst hcomma hothers := balanced_joined hfirst (by simp [hcomma]) hothers
  list hopened h hclosed := h.enclosed hopened hclosed
  range hlow hsign hhigh := balanced_joined hlow (isOperator_ne_paren hsign) hhigh
  single h := h

end Grammar

namespace Parser
open Token Grammar

variable {extent : Extent} {tokens : List Token}

/-! ### Going too deep -/

/-- A parser gave up because no level was left. -/
def Deep {α : Type} (result : Except ParseError α) : Prop := ∃ limit, result = .error (.tooDeep limit)

theorem not_deep_ok {α : Type} {a : α} : ¬Deep (.ok a : Except ParseError α) := by simp [Deep]

theorem deep_bind {α β : Type} {x : Except ParseError α} {f : α → Except ParseError β} :
    Deep (x >>= f) ↔ Deep x ∨ ∃ a, x = .ok a ∧ Deep (f a) := by
  cases x with
  | error e => simp [Deep, bind, Except.bind]
  | ok a => simp [Deep, bind, Except.bind]

theorem not_deep_bind {α β : Type} {x : Except ParseError α} {f : α → Except ParseError β} (hx : ¬Deep x)
    (hf : ∀ a, x = .ok a → ¬Deep (f a)) : ¬Deep (x >>= f) := by
  rw [deep_bind]
  rintro (h | ⟨a, ha, h⟩)
  · exact hx h
  · exact hf a ha h

theorem not_deep_closing {opened : Nat} : ¬Deep (closing opened tokens) := by
  unfold closing
  split
  · simp [Deep]
  · split <;> simp [Deep]

theorem not_deep_opening {after : String} : ¬Deep (opening extent after tokens) := by
  unfold opening
  split
  · simp [Deep]
  · split <;> simp [Deep]

theorem not_deep_betweenAnd : ¬Deep (betweenAnd extent tokens) := by
  unfold betweenAnd
  split
  · simp [Deep]
  · split <;> simp [Deep]

theorem not_deep_leaf {token : Token} : ¬Deep (leaf token) := by
  unfold leaf
  split
  · split <;> simp [Deep, unexpected]
  all_goals simp [Deep, unexpected]

theorem not_deep_ordered {left right : Node} {operator : Comparison} : ¬Deep (ordered left operator right) := by
  unfold ordered
  split
  · simp [Deep]
  · split <;> simp [Deep]
  · split <;> simp [Deep]
  · simp [Deep]

/-! ### Lists -/

/-- What a parser leaves has no more parentheses open at once than what it was given. -/
def Lowers {α : Type} (parser : Parser α) : Prop :=
  ∀ tokens a rest, parser tokens = .ok (a, rest) → peak rest ≤ peak tokens

theorem Sound.lowers {α : Type} {parser : Parser α} {Spelled : List Token → α → Prop} (h : Sound parser Spelled)
    (hbalanced : ∀ used a, Spelled used a → Balanced used) : Lowers parser := by
  intro tokens a rest hparser
  obtain ⟨used, rfl, hused⟩ := h _ _ _ hparser
  exact hbalanced _ _ hused rest

/-- A parser does not go too deep where at most `height` parentheses are open at once. -/
def Shallow {α : Type} (height : Nat) (parser : Parser α) : Prop :=
  ∀ tokens, peak tokens ≤ height → ¬Deep (parser tokens)

section
variable {α : Type} {item : Parser α} {height : Nat}

theorem shallow_moreItems (hitem : Shallow height item) (hlowers : Lowers item) (bound : Nat) :
    Shallow height (moreItems item bound) := by
  induction bound with
  | zero => exact fun _ _ => not_deep_ok
  | succ bound ih =>
    intro tokens htokens
    cases tokens with
    | nil => exact not_deep_ok
    | cons token rest =>
      unfold moreItems
      split
      · next hcomma =>
        rw [peak_other (by simp [hcomma])] at htokens
        refine not_deep_bind (hitem _ htokens) ?_
        rintro ⟨first, behind⟩ hfirst
        have hbehind := Nat.le_trans (hlowers _ _ _ hfirst) htokens
        exact not_deep_bind (ih _ hbehind) fun _ _ => not_deep_ok
      · exact not_deep_ok

theorem shallow_commaList (hitem : Shallow height item) (hlowers : Lowers item) : Shallow height (commaList item) := by
  intro tokens htokens
  refine not_deep_bind (hitem _ htokens) ?_
  rintro ⟨first, behind⟩ hfirst
  have hbehind := Nat.le_trans (hlowers _ _ _ hfirst) htokens
  exact not_deep_bind (shallow_moreItems hitem hlowers _ _ hbehind) fun _ _ => not_deep_ok

end

/-! ### Terms and comparisons -/

section
variable {arguments items : Parser (List Node)} {group operand : Parser Node} {height : Nat}

/-- Behind a parenthesis one fewer is open at once. -/
theorem not_deep_behind {α : Type} {parser : Parser α} {token : Token} (h : ∀ lower < height, Shallow lower parser)
    (hparen : token.isParen '(' = true) (hpeak : peak (token :: tokens) ≤ height) : ¬Deep (parser tokens) := by
  rw [peak_opening hparen] at hpeak
  exact h (peak tokens) (by omega) _ (Nat.le_refl _)

theorem shallow_call (harguments : ∀ lower < height, Shallow lower arguments) (token : Token) :
    Shallow height (call extent arguments token) := by
  intro tokens htokens
  unfold call
  split
  · refine not_deep_bind not_deep_opening ?_
    rintro ⟨opened, behind⟩ hopened
    obtain ⟨openParen, rfl, hopenParen, -⟩ := opening_eq_ok.mp hopened
    refine not_deep_bind (not_deep_behind harguments hopenParen htokens) ?_
    rintro ⟨nodes, behind'⟩ -
    refine not_deep_bind not_deep_closing ?_
    rintro ⟨⟨⟩, behind''⟩ -
    dsimp only
    split <;> simp [Deep, pure, Except.pure]
  · simp [Deep]

theorem shallow_primary (hgroup : ∀ lower < height, Shallow lower group)
    (harguments : ∀ lower < height, Shallow lower arguments) : Shallow height (primary extent group arguments) := by
  intro tokens htokens
  cases tokens with
  | nil => simp [Deep, primary]
  | cons token rest =>
    unfold primary
    dsimp only
    split
    · split
      · next hopened =>
        refine not_deep_bind (not_deep_behind hgroup hopened htokens) ?_
        rintro ⟨node, behind⟩ -
        exact not_deep_bind not_deep_closing fun _ _ => not_deep_ok
      · simp [Deep, unexpected]
    · next hkind =>
      rw [peak_other (by simp [hkind])] at htokens
      exact shallow_call harguments token _ htokens
    · split <;> simp [Deep]
    · exact not_deep_bind not_deep_leaf fun _ _ => not_deep_ok

theorem shallow_comparison (hoperand : Shallow height operand) (hlowers : Lowers operand)
    (hitems : ∀ lower < height, Shallow lower items) (left : Node) (operator : Comparison) (sign : Token) :
    Shallow height (comparison extent operand items left operator sign) := by
  intro tokens htokens
  unfold comparison
  split
  · simp [Deep, unexpected]
  · cases operator with
    | isIn | notIn =>
      refine not_deep_bind not_deep_opening ?_
      rintro ⟨opened, behind⟩ hopened
      obtain ⟨openParen, rfl, hopenParen, -⟩ := opening_eq_ok.mp hopened
      refine not_deep_bind (not_deep_behind hitems hopenParen htokens) ?_
      rintro ⟨nodes, behind'⟩ -
      exact not_deep_bind not_deep_closing fun _ _ => not_deep_ok
    | between =>
      refine not_deep_bind (hoperand _ htokens) ?_
      rintro ⟨low, behind⟩ hlow
      refine not_deep_bind not_deep_betweenAnd ?_
      rintro ⟨⟨⟩, behind'⟩ hand
      obtain ⟨token, rfl, htoken⟩ := betweenAnd_eq_ok.mp hand
      have hbehind := Nat.le_trans (hlowers _ _ _ hlow) htokens
      rw [peak_other (isOperator_ne_paren htoken)] at hbehind
      exact not_deep_bind (hoperand _ hbehind) fun _ _ => not_deep_ok
    | _ =>
      refine not_deep_bind (hoperand _ htokens) fun _ _ => ?_
      exact not_deep_bind not_deep_ordered fun _ _ => not_deep_ok

end

theorem lowers_comparison {levels : Nat} {operand : Parser Node} {items : Parser (List Node)}
    (hoperand : Sound operand (Bounded.Comparand levels)) (hitems : Sound items (Below Bounded.Items levels))
    (left : Node) (operator : Comparison) (sign : Token) :
    Lowers (comparison extent operand items left operator sign) := by
  refine (sound_comparison hoperand hitems left operator sign).lowers fun used node h => ?_
  obtain ⟨-, hright, -⟩ := h
  exact compositional_balanced.rightSide hright.plain

theorem shallow_climb {right : Nat → Parser Node} {compared : Node → Comparison → Token → Parser Node}
    {least height : Nat}
    (hright : ∀ connective : Connective, least ≤ connective.precedence →
      Shallow height (right (connective.precedence + 1)) ∧ Lowers (right (connective.precedence + 1)))
    (hcompared : ∀ left operator sign, Shallow height (compared left operator sign) ∧
      Lowers (compared left operator sign))
    (bound : Nat) (left : Node) : Shallow height (climb right compared least bound left) := by
  induction bound generalizing left with
  | zero => exact fun _ _ => not_deep_ok
  | succ bound ih =>
    intro tokens htokens
    cases tokens with
    | nil => exact not_deep_ok
    | cons sign rest =>
      unfold climb
      dsimp only
      split
      · exact not_deep_ok
      · next found hfound =>
        split
        · exact not_deep_ok
        · next hleast =>
          split
          · next connective =>
            rw [peak_other (isOperator_ne_paren (ofToken?_eq_connective.mp hfound))] at htokens
            obtain ⟨hshallow, hlowers⟩ := hright connective (Nat.not_lt.mp hleast)
            refine not_deep_bind (hshallow _ htokens) ?_
            rintro ⟨node, behind⟩ hnode
            exact ih _ _ (Nat.le_trans (hlowers _ _ _ hnode) htokens)
          · next operator =>
            rw [peak_other (isOperator_ne_paren (ofToken?_eq_comparison.mp hfound))] at htokens
            obtain ⟨hshallow, hlowers⟩ := hcompared left operator sign
            refine not_deep_bind (hshallow _ htokens) ?_
            rintro ⟨node, behind⟩ hnode
            exact ih _ _ (Nat.le_trans (hlowers _ _ _ hnode) htokens)

/-! ### All levels -/

theorem Phrase.balanced {levels least : Nat} {used : List Token} {node : Node} (h : Phrase levels least used node) :
    Balanced used := by
  unfold Phrase at h
  split at h
  · exact compositional_balanced.expression h.plain
  · split at h
    · exact compositional_balanced.conjunction h.plain
    · exact compositional_balanced.condition h.plain

theorem lowers_expression (levels least : Nat) : Lowers (expression extent levels least) :=
  ((soundAt extent levels).phrase least).lowers fun _ _ h => h.balanced

theorem lowers_operand (levels : Nat) : Lowers (operand extent levels) :=
  (soundAt extent levels).operand.lowers fun _ _ h => compositional_balanced.comparand h.plain

/-- The levels that an expression needs where no parenthesis is open: one for itself, and one for each connective that
    may stand in it. -/
def reserve (least : Nat) : Nat := if least ≤ 1 then 3 else if least = 2 then 2 else 1

theorem one_le_reserve (least : Nat) : 1 ≤ reserve least := by
  unfold reserve
  split
  · omega
  · split <;> omega

/-- The right side of a connective needs a level fewer. -/
theorem reserve_succ_lt {least : Nat} {connective : Connective} (h : least ≤ connective.precedence) :
    reserve (connective.precedence + 1) < reserve least := by
  cases connective with
  | or =>
    have hleast : least ≤ 1 := h
    simp [reserve, Connective.precedence, hleast]
  | and =>
    have hleast : least ≤ 2 := h
    have htwo : least ≤ 1 ∨ least = 2 := by omega
    rcases htwo with hone | rfl
    · simp [reserve, Connective.precedence, hone]
    · simp [reserve, Connective.precedence]

/-- The four parsers of a level do not go too deep where few enough parentheses are open at once. -/
structure ShallowAt (extent : Extent) (levels : Nat) : Prop where
  expression : ∀ least height, 4 * height + reserve least ≤ levels → Shallow height (expression extent levels least)
  nested : ∀ height, 4 * height + 1 ≤ levels → Shallow height (nested extent levels)
  arguments : ∀ height, 4 * height + 4 ≤ levels → Shallow height (arguments extent levels)
  items : ∀ height, 4 * height + 1 ≤ levels → Shallow height (items extent levels)

theorem ShallowAt.operand {levels height : Nat} (h : ShallowAt extent levels) (hlevels : 4 * height ≤ levels) :
    Shallow height (operand extent levels) :=
  shallow_primary (fun lower hlower => h.nested lower (by omega)) fun lower hlower => h.arguments lower (by omega)

theorem shallowAt (extent : Extent) (levels : Nat) : ShallowAt extent levels := by
  -- Each parser calls those of the level below. Behind a parenthesis one fewer is open, which pays for four levels: the
  -- one of the list or group itself, and the three that an expression in it may need.
  induction levels with
  | zero =>
    refine ⟨fun least height h => ?_, fun height h => by omega, fun height h => by omega, fun height h => by omega⟩
    have := one_le_reserve least
    omega
  | succ levels ih =>
    have hoperand : Lowers (operand extent levels) := lowers_operand levels
    refine ⟨fun least height h => ?_, fun height h => ih.operand (by omega),
      fun height h => shallow_commaList (ih.expression 0 height (by simp [reserve]; omega)) (lowers_expression levels 0),
      fun height h => shallow_commaList (ih.operand (by omega)) hoperand⟩
    have hreserve := one_le_reserve least
    have hterm : Shallow height (primary extent (expression extent levels 0) (arguments extent levels)) :=
      shallow_primary (fun lower hlower => ih.expression 0 lower (by simp [reserve]; omega))
        fun lower hlower => ih.arguments lower (by omega)
    intro tokens htokens
    refine not_deep_bind (hterm _ htokens) ?_
    rintro ⟨left, behind⟩ hleft
    -- The term that was read leaves no parenthesis open, so the chain behind it has no more of them than there were.
    have hbehind : peak behind ≤ height := by
      have hlowers := (soundAt extent levels).term.lowers fun _ _ h => compositional_balanced.term h.plain
      exact Nat.le_trans (hlowers _ _ _ hleft) htokens
    refine shallow_climb (fun connective hconnective => ?_) (fun left operator sign => ?_) _ _ _ hbehind
    · have hsucc := reserve_succ_lt hconnective
      exact ⟨ih.expression _ height (by omega), lowers_expression levels _⟩
    · have hcomparison : Shallow height (comparison extent _ _ left operator sign) :=
        shallow_comparison (ih.operand (by omega)) hoperand (fun lower hlower => ih.items lower (by omega)) _ _ _
      exact ⟨hcomparison, lowers_comparison (soundAt extent levels).operand (soundAt extent levels).items _ _ _⟩

end Parser

/-- Four levels for each parenthesis that is open at once, and three more, are enough for any list of tokens. -/
theorem ParsedFilter.not_deep_ofTokens {maxDepth : Nat} {known : List String} {tokens : List Token}
    (h : 4 * Token.peak tokens + 3 ≤ maxDepth) : ¬Parser.Deep (ofTokens maxDepth known tokens) := by
  rw [ofTokens_eq]
  split
  · simp [Parser.Deep]
  · next last _ =>
    have hexpression := (Parser.shallowAt ⟨last.stop, maxDepth⟩ maxDepth).expression 0 _ h tokens (Nat.le_refl _)
    refine Parser.not_deep_bind hexpression ?_
    rintro ⟨node, rest⟩ -
    cases rest with
    | nil => exact Parser.not_deep_ok
    | cons token rest => simp [Parser.Deep, Parser.unexpected]

end GridFilter
