import GridFilter.Proofs.Parser.Bounded
import GridFilter.Proofs.Parser.Cursor

/-! What the parser takes off the front of its tokens spells, by the grammar with the levels that the parser has left,
    the tree that it gives. -/

namespace GridFilter.Parser
open Grammar

variable {extent : Extent} {levels least : Nat}

/-- What a parser takes off the front spells what it gives. -/
def Sound {α : Type} (parser : Parser α) (Spelled : List Token → α → Prop) : Prop :=
  ∀ tokens a rest, parser tokens = .ok (a, rest) → ∃ used, tokens = used ++ rest ∧ Spelled used a

theorem Sound.mono {α : Type} {parser : Parser α} {Spelled More : List Token → α → Prop} (h : Sound parser Spelled)
    (hmore : ∀ used a, Spelled used a → More used a) : Sound parser More := by
  intro tokens a rest hparser
  obtain ⟨used, rfl, hused⟩ := h _ _ _ hparser
  exact ⟨used, rfl, hmore _ _ hused⟩

/-- Spelled with a level fewer. -/
def Below {α : Type} (Spelled : Nat → List Token → α → Prop) (levels : Nat) (used : List Token) (a : α) : Prop :=
  ∃ lower, levels = lower + 1 ∧ Spelled lower used a

/-! ### Lists -/

section
variable {α : Type} {item : Parser α} {Item : List Token → α → Prop}

theorem sound_moreItems (hitem : Sound item Item) {bound : Nat} {tokens rest : List Token} {others : List α}
    (h : moreItems item bound tokens = .ok (others, rest)) : others = [] ∧ tokens = rest ∨
      ∃ comma used, tokens = comma :: (used ++ rest) ∧ comma.kind = .comma ∧ Separated Item used others := by
  induction bound generalizing tokens rest others with
  | zero => cases h; exact .inl ⟨rfl, rfl⟩
  | succ bound ih =>
    cases tokens with
    | nil => cases h; exact .inl ⟨rfl, rfl⟩
    | cons token tail =>
      unfold moreItems at h
      split at h
      · next hcomma =>
        obtain ⟨⟨first, behind⟩, hfirst, h⟩ := bind_eq_ok.mp h
        obtain ⟨⟨more, rest'⟩, hmore, h⟩ := bind_eq_ok.mp h
        cases h
        obtain ⟨used, rfl, hused⟩ := hitem _ _ _ hfirst
        refine .inr ⟨token, ?_⟩
        rcases ih hmore with ⟨rfl, rfl⟩ | ⟨comma, used', rfl, hcomma', hused'⟩
        · exact ⟨used, rfl, hcomma, .one hused⟩
        · exact ⟨used ++ comma :: used', by simp, hcomma, .more hused hcomma' hused'⟩
      · cases h; exact .inl ⟨rfl, rfl⟩

theorem sound_commaList (hitem : Sound item Item) : Sound (commaList item) (Separated Item) := by
  intro tokens items rest h
  obtain ⟨⟨first, behind⟩, hfirst, h⟩ := bind_eq_ok.mp h
  obtain ⟨⟨more, rest'⟩, hmore, h⟩ := bind_eq_ok.mp h
  cases h
  obtain ⟨used, rfl, hused⟩ := hitem _ _ _ hfirst
  rcases sound_moreItems hitem hmore with ⟨rfl, rfl⟩ | ⟨comma, used', rfl, hcomma, hused'⟩
  · exact ⟨used, rfl, .one hused⟩
  · exact ⟨used ++ comma :: used', by simp, .more hused hcomma hused'⟩

end

theorem arguments_of_separated {used : List Token} {nodes : List Node}
    (h : Separated (Bounded.Expression levels) used nodes) : Bounded.Arguments levels used nodes := by
  induction h with
  | one h => exact .one h
  | more h hcomma _ ih => exact .more h hcomma ih

theorem items_of_separated {used : List Token} {nodes : List Node}
    (h : Separated (Bounded.Comparand levels) used nodes) : Bounded.Items levels used nodes := by
  induction h with
  | one h => exact .one h
  | more h hcomma _ ih => exact .more h hcomma ih

/-! ### Terms and comparands -/

section
variable {arguments items : Parser (List Node)} {group operand : Parser Node}

theorem sound_call (harguments : Sound arguments (Below Bounded.Arguments levels)) {token : Token}
    (hkind : token.kind = .function) :
    Sound (call extent arguments token) fun used node => Bounded.Call levels (token :: used) node := by
  intro tokens node rest h
  unfold call at h
  split at h
  · next hname =>
    obtain ⟨⟨opened, behind⟩, hopened, h⟩ := bind_eq_ok.mp h
    obtain ⟨⟨nodes, behind'⟩, hnodes, h⟩ := bind_eq_ok.mp h
    obtain ⟨⟨⟨⟩, behind''⟩, hclosed, h⟩ := bind_eq_ok.mp h
    dsimp only at h
    split at h
    · cases h
    · next hleast =>
      cases h
      obtain ⟨openParen, rfl, hopenParen, -⟩ := opening_eq_ok.mp hopened
      obtain ⟨inner, rfl, lower, rfl, hinner⟩ := harguments _ _ _ hnodes
      obtain ⟨closeParen, rfl, hcloseParen⟩ := closing_eq_ok.mp hclosed
      refine ⟨openParen :: (inner ++ [closeParen]), by simp, ?_⟩
      exact .isNull hkind hname hopenParen hinner (by omega) hcloseParen
  · cases h

theorem sound_primary {Group Primary : List Token → Node → Prop}
    (hvalue : ∀ token node, Spells token node → Primary [token] node)
    (hcall : ∀ tokens node, Bounded.Call levels tokens node → Primary tokens node)
    (hgrouped : ∀ opened inner node closed, opened.isParen '(' = true → Group inner node →
      closed.isParen ')' = true → Primary (opened :: (inner ++ [closed])) node)
    (hgroup : Sound group Group) (harguments : Sound arguments (Below Bounded.Arguments levels)) :
    Sound (primary extent group arguments) Primary := by
  intro tokens node rest h
  cases tokens with
  | nil => cases h
  | cons token tail =>
    unfold primary at h
    dsimp only at h
    split at h
    · split at h
      · next hopened =>
        obtain ⟨⟨inside, behind⟩, hinside, h⟩ := bind_eq_ok.mp h
        obtain ⟨⟨⟨⟩, behind'⟩, hclosed, h⟩ := bind_eq_ok.mp h
        cases h
        obtain ⟨inner, rfl, hinner⟩ := hgroup _ _ _ hinside
        obtain ⟨closeParen, rfl, hcloseParen⟩ := closing_eq_ok.mp hclosed
        exact ⟨token :: (inner ++ [closeParen]), by simp, hgrouped _ _ _ _ hopened hinner hcloseParen⟩
      · cases h
    · next hkind =>
      obtain ⟨used, rfl, hused⟩ := sound_call harguments hkind _ _ _ h
      exact ⟨token :: used, rfl, hcall _ _ hused⟩
    · next hkind =>
      split at h
      · cases h
      · cases h
        exact ⟨[token], rfl, hvalue _ _ (.identifier hkind)⟩
    · obtain ⟨leaf, hleaf, h⟩ := bind_eq_ok.mp h
      cases h
      exact ⟨[token], rfl, hvalue _ _ (leaf_eq_ok.mp hleaf)⟩

theorem sound_term (hgroup : Sound group (Bounded.Expression levels))
    (harguments : Sound arguments (Below Bounded.Arguments levels)) :
    Sound (primary extent group arguments) (Bounded.Term levels) :=
  sound_primary (fun _ _ => .value) (fun _ _ => .call) (fun _ _ _ _ => .group) hgroup harguments

theorem sound_comparand (hgroup : Sound group (Below Bounded.Comparand levels))
    (harguments : Sound arguments (Below Bounded.Arguments levels)) :
    Sound (primary extent group arguments) (Bounded.Comparand levels) := by
  refine sound_primary (fun _ _ => .value) (fun _ _ => .call) (fun _ _ _ _ hopened hinner hclosed => ?_) hgroup harguments
  obtain ⟨lower, rfl, hinner⟩ := hinner
  exact .nested hopened hinner hclosed

/-! ### Comparisons -/

/-- What stands behind the sign of a comparison, and the tree that it makes with the left side, which is a value. -/
inductive Compared (levels : Nat) (left : Node) (operator : Comparison) (used : List Token) (node : Node) : Prop where
  | intro {right : Operand} : left.isCondition = false → Bounded.RightSide levels operator used right →
      Arranged left operator right node → Compared levels left operator used node

theorem sound_comparison (hoperand : Sound operand (Bounded.Comparand levels))
    (hitems : Sound items (Below Bounded.Items levels)) (left : Node) (operator : Comparison) (sign : Token) :
    Sound (comparison extent operand items left operator sign) (Compared levels left operator) := by
  intro tokens node rest h
  have list (hoperator : operator = .isIn ∨ operator = .notIn) {nodes : List Node} {opened : Nat}
      {behind behind' : List Token} (hopened : opening extent operator.symbol tokens = .ok (opened, behind))
      (hnodes : items behind = .ok (nodes, behind')) (hclosed : closing opened behind' = .ok ((), rest)) :
      ∃ used, tokens = used ++ rest ∧ Bounded.RightSide levels operator used (.list nodes) := by
    obtain ⟨openParen, rfl, hopenParen, -⟩ := opening_eq_ok.mp hopened
    obtain ⟨inner, rfl, lower, rfl, hinner⟩ := hitems _ _ _ hnodes
    obtain ⟨closeParen, rfl, hcloseParen⟩ := closing_eq_ok.mp hclosed
    exact ⟨openParen :: (inner ++ [closeParen]), by simp, .list hoperator hopenParen hinner hcloseParen⟩
  unfold comparison at h
  split at h
  · cases h
  · next hvalue =>
    rw [Bool.not_eq_true] at hvalue
    split at h
    · obtain ⟨⟨opened, behind⟩, hopened, h⟩ := bind_eq_ok.mp h
      obtain ⟨⟨nodes, behind'⟩, hnodes, h⟩ := bind_eq_ok.mp h
      obtain ⟨⟨⟨⟩, behind''⟩, hclosed, h⟩ := bind_eq_ok.mp h
      cases h
      obtain ⟨used, hused, hright⟩ := list (.inl rfl) hopened hnodes hclosed
      exact ⟨used, hused, .intro hvalue hright .list⟩
    · obtain ⟨⟨opened, behind⟩, hopened, h⟩ := bind_eq_ok.mp h
      obtain ⟨⟨nodes, behind'⟩, hnodes, h⟩ := bind_eq_ok.mp h
      obtain ⟨⟨⟨⟩, behind''⟩, hclosed, h⟩ := bind_eq_ok.mp h
      cases h
      obtain ⟨used, hused, hright⟩ := list (.inr rfl) hopened hnodes hclosed
      exact ⟨used, hused, .intro hvalue hright .list⟩
    · obtain ⟨⟨low, behind⟩, hlow, h⟩ := bind_eq_ok.mp h
      obtain ⟨⟨⟨⟩, behind'⟩, hand, h⟩ := bind_eq_ok.mp h
      obtain ⟨⟨high, behind''⟩, hhigh, h⟩ := bind_eq_ok.mp h
      cases h
      obtain ⟨first, rfl, hfirst⟩ := hoperand _ _ _ hlow
      obtain ⟨token, rfl, htoken⟩ := betweenAnd_eq_ok.mp hand
      obtain ⟨second, rfl, hsecond⟩ := hoperand _ _ _ hhigh
      exact ⟨first ++ token :: second, by simp, .intro hvalue (.range hfirst htoken hsecond) .range⟩
    · next hin hnot hbetween =>
      obtain ⟨⟨right, behind⟩, hright, h⟩ := bind_eq_ok.mp h
      obtain ⟨result, hresult, h⟩ := bind_eq_ok.mp h
      cases h
      obtain ⟨used, rfl, hused⟩ := hoperand _ _ _ hright
      exact ⟨used, rfl, .intro hvalue (.single hin hnot hbetween hused) (ordered_eq_ok.mp hresult)⟩

end

theorem isCondition_of_arranged {left node : Node} {operator : Comparison} {right : Operand}
    (h : Arranged left operator right node) : node.isCondition = true := by
  cases h <;> rfl

/-! ### Chains of operators -/

/-- The trees of expressions whose operators bind at least as tightly as `least`, with so many levels. -/
def Phrase (levels least : Nat) : List Token → Node → Prop :=
  if least ≤ 1 then Bounded.Expression levels
  else if least = 2 then Bounded.Conjunction levels else Bounded.Condition levels

theorem phrase_eq_expression (h : least ≤ 1) : Phrase levels least = Bounded.Expression levels := if_pos h

theorem phrase_of_condition {used : List Token} {node : Node} (h : Bounded.Condition levels used node) :
    Phrase levels least used node := by
  unfold Phrase
  split
  · exact .conjunction (.condition h)
  · split
    · exact .condition h
    · exact h

theorem phrase_of_conjunction {used : List Token} {node : Node} (h : Bounded.Conjunction levels used node)
    (hleast : least ≤ 2) : Phrase levels least used node := by
  unfold Phrase
  split
  · exact .conjunction h
  · rw [if_pos (by omega)]
    exact h

/-- No operator that binds at least as tightly as `least` comes next. -/
def Stops (least : Nat) (tokens : List Token) : Prop :=
  ∀ token ∈ tokens.head?, ∀ found, BinaryOperator.ofToken? token = some found → found.precedence < least

/-- What has been read in front of a chain of operators, with so many levels for their right sides: a term or a
    condition, which binds tightly enough, and which an `AND` may follow only if it is a conjunction. -/
structure Front (levels least : Nat) (used : List Token) (node : Node) (tokens : List Token) : Prop where
  term : Bounded.Term levels used node ∨ node.isCondition = true
  phrase : Phrase (levels + 1) least used node
  conjunction : Bounded.Conjunction (levels + 1) used node ∨ Stops 2 tokens

theorem front_of_condition {used tokens : List Token} {node : Node} (h : Bounded.Condition (levels + 1) used node)
    (hterm : Bounded.Term levels used node ∨ node.isCondition = true) : Front levels least used node tokens :=
  ⟨hterm, phrase_of_condition h, .inl (.condition h)⟩

/-- A connective takes its right side in. -/
theorem Front.connective {used second rest : List Token} {left right : Node} {sign : Token} {connective : Connective}
    (h : Front levels least used left (sign :: (second ++ rest))) (hsign : sign.isOperator connective.symbol = true)
    (hleast : least ≤ connective.precedence) (hright : Phrase levels (connective.precedence + 1) second right)
    (hstops : Stops (connective.precedence + 1) rest) :
    Front levels least (used ++ sign :: second) (.logical connective left right) rest := by
  cases connective with
  | or =>
    have hexpression := phrase_eq_expression hleast ▸ h.phrase
    exact ⟨.inr rfl, phrase_eq_expression hleast ▸ .or hexpression hsign hright, .inr hstops⟩
  | and =>
    -- Behind an `OR` no `AND` comes: its right side would have taken it in.
    have hleft : Bounded.Conjunction (levels + 1) used left := h.conjunction.resolve_right fun hstops =>
      absurd (hstops sign rfl _ (ofToken?_eq_connective.mpr hsign)) (by decide)
    have hconjunction := Bounded.Conjunction.and hleft hsign hright
    exact ⟨.inr rfl, phrase_of_conjunction hconjunction hleast, .inl hconjunction⟩

/-- A comparison takes its right side in. -/
theorem Front.comparison {used others tokens rest : List Token} {left node : Node} {sign : Token}
    {operator : Comparison} (h : Front levels least used left tokens) (hsign : sign.isOperator operator.symbol = true)
    (hcompared : Compared levels left operator others node) :
    Front levels least (used ++ sign :: others) node rest := by
  obtain ⟨hvalue, hothers, harranged⟩ := hcompared
  -- A condition cannot be compared, so a term alone stands in front of the operator.
  have hterm : Bounded.Term levels used left := h.term.resolve_right (by simp [hvalue])
  exact front_of_condition (.compared hterm hvalue hsign hothers harranged) (.inr (isCondition_of_arranged harranged))

variable {right : Nat → Parser Node} {compared : Node → Comparison → Token → Parser Node}

/-- What a chain of operators behind `left` makes of it. -/
theorem sound_climb
    (hright : ∀ least tokens node rest, right least tokens = .ok (node, rest) →
      ∃ used, tokens = used ++ rest ∧ Phrase levels least used node ∧ Stops least rest)
    (hcompared : ∀ left operator sign, Sound (compared left operator sign) (Compared levels left operator))
    {bound : Nat} {used tokens rest : List Token} {left node : Node} (hbound : tokens.length ≤ bound)
    (hfront : Front levels least used left tokens)
    (h : climb right compared least bound left tokens = .ok (node, rest)) :
    ∃ more, tokens = more ++ rest ∧ Phrase (levels + 1) least (used ++ more) node ∧ Stops least rest := by
  -- What has been read grows by an operator and its right side, and stays a front of what is left.
  induction bound generalizing used tokens left with
  | zero =>
    obtain rfl := List.length_eq_zero_iff.mp (Nat.le_zero.mp hbound)
    cases h
    exact ⟨[], rfl, by simpa using hfront.phrase, by simp [Stops]⟩
  | succ bound ih =>
    cases tokens with
    | nil =>
      cases h
      exact ⟨[], rfl, by simpa using hfront.phrase, by simp [Stops]⟩
    | cons sign tail =>
      have stop (hstops : Stops least (sign :: tail)) :
          ∃ more, sign :: tail = more ++ (sign :: tail) ∧ Phrase (levels + 1) least (used ++ more) left ∧
            Stops least (sign :: tail) :=
        ⟨[], rfl, by simpa using hfront.phrase, hstops⟩
      unfold climb at h
      dsimp only at h
      split at h
      · next hnone =>
        cases h
        exact stop (by simp [Stops, hnone])
      · next found hfound =>
        split at h
        · next hless =>
          cases h
          exact stop (by simpa [Stops, hfound] using hless)
        · next hleast =>
          split at h
          · next connective =>
            obtain ⟨⟨inside, behind⟩, hinside, hbehind⟩ := bind_eq_ok.mp h
            obtain ⟨second, rfl, hsecond, hstops⟩ := hright _ _ _ _ hinside
            have hnext := hfront.connective (ofToken?_eq_connective.mp hfound) (Nat.not_lt.mp hleast) hsecond hstops
            obtain ⟨more, rfl, hmore, hrest⟩ := ih (by simp at hbound ⊢; omega) hnext hbehind
            exact ⟨sign :: (second ++ more), by simp, by simpa using hmore, hrest⟩
          · next operator =>
            obtain ⟨⟨inside, behind⟩, hinside, hbehind⟩ := bind_eq_ok.mp h
            obtain ⟨others, rfl, hothers⟩ := hcompared _ _ _ _ _ _ hinside
            have hnext : Front levels least _ inside behind := hfront.comparison (ofToken?_eq_comparison.mp hfound) hothers
            obtain ⟨more, rfl, hmore, hrest⟩ := ih (by simp at hbound ⊢; omega) hnext hbehind
            exact ⟨sign :: (others ++ more), by simp, by simpa using hmore, hrest⟩

/-! ### All levels -/

/-- The four parsers of a level take spelled parts off the front. -/
structure SoundAt (extent : Extent) (levels : Nat) : Prop where
  expression : ∀ least tokens node rest, expression extent levels least tokens = .ok (node, rest) →
    ∃ used, tokens = used ++ rest ∧ Phrase levels least used node ∧ Stops least rest
  nested : Sound (nested extent levels) (Below Bounded.Comparand levels)
  arguments : Sound (arguments extent levels) (Below Bounded.Arguments levels)
  items : Sound (items extent levels) (Below Bounded.Items levels)

theorem SoundAt.phrase (h : SoundAt extent levels) (least : Nat) :
    Sound (Parser.expression extent levels least) (Phrase levels least) := by
  intro tokens node rest hexpression
  obtain ⟨used, rfl, hused, -⟩ := h.expression _ _ _ _ hexpression
  exact ⟨used, rfl, hused⟩

theorem SoundAt.whole (h : SoundAt extent levels) :
    Sound (Parser.expression extent levels 0) (Bounded.Expression levels) :=
  h.phrase 0

theorem SoundAt.term (h : SoundAt extent levels) :
    Sound (primary extent (Parser.expression extent levels 0) (Parser.arguments extent levels)) (Bounded.Term levels) :=
  sound_term h.whole h.arguments

theorem SoundAt.operand (h : SoundAt extent levels) : Sound (operand extent levels) (Bounded.Comparand levels) :=
  sound_comparand h.nested h.arguments

theorem soundAt (extent : Extent) (levels : Nat) : SoundAt extent levels := by
  induction levels with
  | zero => exact ⟨nofun, nofun, nofun, nofun⟩
  | succ levels ih =>
    refine ⟨fun least tokens node rest h => ?_, ih.operand.mono fun _ _ h => ⟨levels, rfl, h⟩,
      (sound_commaList ih.whole).mono fun _ _ h => ⟨levels, rfl, arguments_of_separated h⟩,
      (sound_commaList ih.operand).mono fun _ _ h => ⟨levels, rfl, items_of_separated h⟩⟩
    obtain ⟨⟨left, behind⟩, hleft, hbehind⟩ := bind_eq_ok.mp h
    obtain ⟨used, rfl, hused⟩ := ih.term _ _ _ hleft
    have hfront : Front levels least used left behind := front_of_condition (.term hused) (.inl hused)
    obtain ⟨more, rfl, hmore, hrest⟩ :=
      sound_climb ih.expression (sound_comparison ih.operand ih.items) (Nat.le_refl _) hfront hbehind
    exact ⟨used ++ more, by simp, hmore, hrest⟩

end GridFilter.Parser

/-- The tokens of a filter spell its tree with as many levels as there may be. -/
theorem GridFilter.ParsedFilter.bounded_of_ofTokens {maxDepth : Nat} {known : List String} {tokens : List Token}
    {parsed : ParsedFilter} (h : ofTokens maxDepth known tokens = .ok parsed) :
    Grammar.Bounded.Expression maxDepth tokens parsed.ast := by
  rw [ofTokens_eq] at h
  split at h
  · cases h
  · next last _ =>
    obtain ⟨⟨ast, rest⟩, hexpression, hrest⟩ := Parser.bind_eq_ok.mp h
    obtain ⟨used, rfl, hused⟩ := (Parser.soundAt _ _).whole _ _ _ hexpression
    -- Tokens behind the expression are refused.
    cases rest with
    | nil => cases hrest; simpa using hused
    | cons token tail => cases hrest
