import GridFilter.Proofs.Parser.Sound

/-! The parser refuses a token as soon as it sees it. What it takes it takes whatever follows behind the next token, and
    where it refuses a token, or misses one, what stands in front of it is the front of a filter. -/

namespace GridFilter

namespace Parser
open Grammar

variable {extent : Extent} {levels least : Nat} {token : Token} {tokens used rest : List Token}

/-! ### One parser behind another -/

/-- One parser and then another, which depends on what the first one gives. -/
def andThen {α β : Type} (parser : Parser α) (next : α → Parser β) : Parser β := fun tokens =>
  parser tokens >>= fun (a, rest) => next a rest

/-- Gives this without looking at any token. -/
def giving {α : Type} (a : α) : Parser α := fun rest => .ok (a, rest)

theorem andThen_of_ok {α β : Type} {parser : Parser α} {next : α → Parser β} {a : α}
    (h : parser tokens = .ok (a, rest)) : andThen parser next tokens = next a rest := by
  simp [andThen, h, bind, Except.bind]

theorem andThen_of_error {α β : Type} {parser : Parser α} {next : α → Parser β} {e : ParseError}
    (h : parser tokens = .error e) : andThen parser next tokens = .error e := by
  simp [andThen, h, bind, Except.bind]

theorem call_eq {arguments : Parser (List Node)} (h : Text.sameLetters token.text Node.functionName = true) :
    call extent arguments token =
      andThen (opening extent Node.functionName) fun opened => andThen arguments fun nodes =>
        andThen (closing opened) fun _ rest =>
          if nodes.length < Node.leastArguments then
            .error (.tooFewArguments Node.functionName Node.leastArguments nodes.length)
          else .ok (.isNull nodes, rest) := by
  funext tokens
  simp only [call, h, if_true]
  rfl

theorem primary_group {group : Parser Node} {arguments : Parser (List Node)} (h : token.isParen '(' = true) :
    primary extent group arguments (token :: rest) =
      andThen group (fun node => andThen (closing token.position) fun _ => giving node) rest := by
  simp only [primary, isParen_kind h, h, if_true]
  rfl

theorem primary_call {group : Parser Node} {arguments : Parser (List Node)} (h : token.kind = .function) :
    primary extent group arguments (token :: rest) = call extent arguments token rest := by
  simp only [primary, h]

section
variable {operand : Parser Node} {items : Parser (List Node)} {left : Node} {operator : Comparison} {sign : Token}

theorem comparison_list (hleft : left.isCondition = false) (h : operator = .isIn ∨ operator = .notIn) :
    comparison extent operand items left operator sign =
      andThen (opening extent operator.symbol) fun opened => andThen items fun nodes =>
        andThen (closing opened) fun _ => giving (.comparison left operator (.list nodes)) := by
  funext tokens
  rcases h with rfl | rfl
  all_goals
    simp only [comparison, hleft, Bool.false_eq_true, if_false]
    rfl

theorem comparison_range (hleft : left.isCondition = false) :
    comparison extent operand items left .between sign =
      andThen operand fun low => andThen (betweenAnd extent) fun _ => andThen operand fun high =>
        giving (.comparison left .between (.range low high)) := by
  funext tokens
  simp only [comparison, hleft, Bool.false_eq_true, if_false]
  rfl

theorem comparison_single (hleft : left.isCondition = false) (hin : operator ≠ .isIn) (hnot : operator ≠ .notIn)
    (hbetween : operator ≠ .between) : comparison extent operand items left operator sign =
      andThen operand fun right rest => ordered left operator right >>= fun node => giving node rest := by
  funext tokens
  cases operator <;> simp_all only [comparison, Bool.false_eq_true, if_false, ne_eq, not_true_eq_false] <;> rfl

end

/-! ### Bounds that are high enough -/

theorem Sound.length_le {α : Type} {parser : Parser α} {Spelled : List Token → α → Prop} {a : α}
    (h : Sound parser Spelled) (hparser : parser tokens = .ok (a, rest)) : rest.length ≤ tokens.length := by
  obtain ⟨used, rfl, -⟩ := h _ _ _ hparser
  simp

theorem bind_congr_of_ok {α β : Type} {x : Except ParseError α} {f g : α → Except ParseError β}
    (h : ∀ a, x = .ok a → f a = g a) : (x >>= f) = (x >>= g) := by
  cases x with
  | error e => rfl
  | ok a => exact h a rfl

section
variable {α : Type} {item : Parser α} {Item : List Token → α → Prop}

theorem moreItems_bound (hitem : Sound item Item) {bound higher : Nat} (h : tokens.length ≤ bound)
    (h' : tokens.length ≤ higher) : moreItems item bound tokens = moreItems item higher tokens := by
  induction bound generalizing higher tokens with
  | zero =>
    obtain rfl := List.length_eq_zero_iff.mp (Nat.le_zero.mp h)
    cases higher <;> rfl
  | succ bound ih =>
    cases tokens with
    | nil => cases higher <;> rfl
    | cons token rest =>
      simp only [List.length_cons] at h h'
      obtain ⟨higher, rfl⟩ := Nat.exists_eq_succ_of_ne_zero (by omega : higher ≠ 0)
      simp only [moreItems]
      split
      · refine bind_congr_of_ok fun _ hfirst => ?_
        have hlength := hitem.length_le hfirst
        exact congrArg (· >>= _) (ih (Nat.le_trans hlength (by omega)) (Nat.le_trans hlength (by omega)))
      · rfl

/-- What follows the first item of a list. -/
def itemsBehind (item : Parser α) : Parser (List α) := fun tokens => moreItems item tokens.length tokens

theorem commaList_eq : commaList item =
    andThen item fun first => andThen (itemsBehind item) fun others => giving (first :: others) := rfl

/-- Behind a comma the list begins anew. -/
theorem itemsBehind_comma (hitem : Sound item Item) (h : token.kind = .comma) :
    itemsBehind item (token :: rest) = commaList item rest := by
  simp only [itemsBehind, List.length_cons, moreItems, h, if_true]
  refine bind_congr_of_ok fun _ hfirst => ?_
  exact congrArg (· >>= _) (moreItems_bound hitem (hitem.length_le hfirst) (Nat.le_refl _))

theorem itemsBehind_stop (h : ∀ token ∈ tokens.head?, token.kind ≠ .comma) : itemsBehind item tokens = .ok ([], tokens) := by
  cases tokens with
  | nil => rfl
  | cons token rest => simp [itemsBehind, moreItems, h token rfl]

end

section
variable {right : Nat → Parser Node} {compared : Node → Comparison → Token → Parser Node} {left : Node} {sign : Token}

/-- Neither the right sides of connectives nor comparisons add tokens. -/
structure Shortens (right : Nat → Parser Node) (compared : Node → Comparison → Token → Parser Node) : Prop where
  right : ∀ {least tokens node rest}, right least tokens = .ok (node, rest) → rest.length ≤ tokens.length
  compared : ∀ {left operator sign tokens node rest}, compared left operator sign tokens = .ok (node, rest) →
    rest.length ≤ tokens.length

theorem climb_bound (hshort : Shortens right compared) {bound higher : Nat} (h : tokens.length ≤ bound)
    (h' : tokens.length ≤ higher) :
    climb right compared least bound left tokens = climb right compared least higher left tokens := by
  induction bound generalizing higher tokens left with
  | zero =>
    obtain rfl := List.length_eq_zero_iff.mp (Nat.le_zero.mp h)
    cases higher <;> rfl
  | succ bound ih =>
    cases tokens with
    | nil => cases higher <;> rfl
    | cons token rest =>
      simp only [List.length_cons] at h h'
      obtain ⟨higher, rfl⟩ := Nat.exists_eq_succ_of_ne_zero (by omega : higher ≠ 0)
      simp only [climb]
      split
      · rfl
      · split
        · rfl
        · split
          · refine bind_congr_of_ok fun _ hnode => ?_
            have hlength := hshort.right hnode
            exact ih (Nat.le_trans hlength (by omega)) (Nat.le_trans hlength (by omega))
          · refine bind_congr_of_ok fun _ hnode => ?_
            have hlength := hshort.compared hnode
            exact ih (Nat.le_trans hlength (by omega)) (Nat.le_trans hlength (by omega))

/-- The chain of operators behind `left`. -/
def chainBehind (right : Nat → Parser Node) (compared : Node → Comparison → Token → Parser Node) (least : Nat)
    (left : Node) : Parser Node := fun tokens => climb right compared least tokens.length left tokens

theorem chainBehind_connective (hshort : Shortens right compared) {connective : Connective}
    (hsign : sign.isOperator connective.symbol = true) (hleast : least ≤ connective.precedence) :
    chainBehind right compared least left (sign :: rest) = andThen (right (connective.precedence + 1))
      (fun node => chainBehind right compared least (.logical connective left node)) rest := by
  simp only [chainBehind, List.length_cons, climb, ofToken?_eq_connective.mpr hsign, BinaryOperator.precedence,
    Nat.not_lt.mpr hleast, if_false]
  refine bind_congr_of_ok fun _ hnode => ?_
  exact climb_bound hshort (hshort.right hnode) (Nat.le_refl _)

theorem chainBehind_comparison (hshort : Shortens right compared) {operator : Comparison}
    (hsign : sign.isOperator operator.symbol = true) (hleast : least ≤ Comparison.precedence) :
    chainBehind right compared least left (sign :: rest) =
      andThen (compared left operator sign) (chainBehind right compared least) rest := by
  simp only [chainBehind, List.length_cons, climb, ofToken?_eq_comparison.mpr hsign, BinaryOperator.precedence,
    Nat.not_lt.mpr hleast, if_false]
  refine bind_congr_of_ok fun _ hnode => ?_
  exact climb_bound hshort (hshort.compared hnode) (Nat.le_refl _)

theorem expression_eq : expression extent (levels + 1) least =
    andThen (primary extent (expression extent levels 0) (arguments extent levels))
      (chainBehind (expression extent levels) (comparison extent (operand extent levels) (items extent levels)) least) :=
  rfl

end

/-! ### Prompt refusals -/

/-- A reason that names a token without a use, or the lack of one. -/
def isMisplaced : ParseError → Bool
  | .unexpectedToken .. | .unexpectedEnd => true
  | _ => false

/-- What a parser does with these tokens is settled by those that it takes and the next one. If it refuses one as
    having no use, or misses one, then what stands in front is `Viable`. -/
inductive Prompt {α : Type} (parser : Parser α) (Viable : List Token → Prop) : List Token → Prop where
  | taken (used : List Token) {rest : List Token} (a : α) :
      (∀ rest', rest'.head? = rest.head? → parser (used ++ rest') = .ok (a, rest')) → Prompt parser Viable (used ++ rest)
  | refused (used : List Token) {token : Token} {tail : List Token} : Viable used →
      (∀ tail', parser (used ++ token :: tail') = .error (unexpected token)) →
      Prompt parser Viable (used ++ token :: tail)
  | missed {tokens : List Token} : Viable tokens → parser tokens = .error .unexpectedEnd → Prompt parser Viable tokens
  | other {tokens : List Token} {e : ParseError} : parser tokens = .error e → isMisplaced e = false →
      Prompt parser Viable tokens

section
variable {α β : Type} {parser : Parser α} {next : α → Parser β} {Viable More : List Token → Prop}
  {Spelled : List Token → α → Prop}

theorem Prompt.mono (h : Prompt parser Viable tokens) (hmore : ∀ used, Viable used → More used) :
    Prompt parser More tokens := by
  cases h with
  | taken used a h => exact .taken used a h
  | refused used hviable h => exact .refused used (hmore _ hviable) h
  | missed hviable h => exact .missed (hmore _ hviable) h
  | other h he => exact .other h he

/-- A parser that takes a token and goes on as a prompt one does is prompt. -/
theorem Prompt.cons {behind : Parser α} (hparser : ∀ rest, parser (token :: rest) = behind rest)
    (h : Prompt behind (fun used => Viable (token :: used)) tokens) : Prompt parser Viable (token :: tokens) := by
  cases h with
  | taken used a h => exact .taken (token :: used) a fun rest' hrest => (hparser _).trans (h rest' hrest)
  | refused used hviable h => exact .refused (token :: used) hviable fun tail' => (hparser _).trans (h tail')
  | missed hviable h => exact .missed hviable ((hparser _).trans h)
  | other h he => exact .other ((hparser _).trans h) he

theorem head?_append_congr {other : List Token} (h : rest.head? = other.head?) :
    (used ++ rest).head? = (used ++ other).head? := by
  cases used with
  | nil => exact h
  | cons token used => rfl

theorem Prompt.andThen (h : Prompt parser Viable tokens) (hsound : Sound parser Spelled)
    (hnext : ∀ used a rest, tokens = used ++ rest → parser tokens = .ok (a, rest) → Spelled used a →
      Prompt (next a) (fun more => Viable (used ++ more)) rest) : Prompt (andThen parser next) Viable tokens := by
  cases h with
  | @taken used rest a h =>
    -- What the second parser looks at begins as before, so that the first one still takes the same.
    have hstep {rest' : List Token} (hrest : rest'.head? = rest.head?) :
        Parser.andThen parser next (used ++ rest') = next a rest' := andThen_of_ok (h rest' hrest)
    have hspelled : Spelled used a := by
      obtain ⟨used', hused, hspelled⟩ := hsound _ _ _ (h rest rfl)
      rwa [List.append_cancel_right hused]
    cases hnext used a rest rfl (h rest rfl) hspelled with
    | taken used' b h' =>
      rw [← List.append_assoc]
      refine .taken (used ++ used') b fun rest' hrest => ?_
      rw [List.append_assoc]
      refine (hstep ?_).trans (h' rest' hrest)
      exact head?_append_congr hrest
    | refused used' hviable h' =>
      rw [← List.append_assoc]
      refine .refused (used ++ used') hviable fun tail' => ?_
      rw [List.append_assoc]
      refine (hstep ?_).trans (h' tail')
      exact head?_append_congr rfl
    | missed hviable h' => exact .missed hviable ((hstep rfl).trans h')
    | other h' he => exact .other ((hstep rfl).trans h') he
  | refused used hviable h => exact .refused used hviable fun tail' => andThen_of_error (h tail')
  | missed hviable h => exact .missed hviable (andThen_of_error h)
  | other h he => exact .other (andThen_of_error h) he

/-- What a prompt parser takes it takes in front of whatever begins with the same token. -/
theorem Prompt.of_ok {a : α} (h : Prompt parser Viable (used ++ rest)) (hok : parser (used ++ rest) = .ok (a, rest))
    {rest' : List Token} (hrest : rest'.head? = rest.head?) : parser (used ++ rest') = .ok (a, rest') := by
  generalize htokens : used ++ rest = tokens at h hok
  cases h with
  | @taken used' behind a' h =>
    rw [h behind rfl] at hok
    cases hok
    obtain rfl := List.append_cancel_right htokens
    exact h rest' hrest
  | refused _ _ h => rw [h] at hok; cases hok
  | missed _ h => rw [h] at hok; cases hok
  | other h _ => rw [h] at hok; cases hok

/-- Where a prompt parser refuses a token it refuses it whatever follows. -/
theorem Prompt.of_unexpectedToken {found : String} {position : Nat} (h : Prompt parser Viable tokens)
    (herror : parser tokens = .error (.unexpectedToken found position)) :
    ∃ used token tail, tokens = used ++ token :: tail ∧ unexpected token = .unexpectedToken found position ∧
      Viable used ∧ ∀ tail', parser (used ++ token :: tail') = .error (unexpected token) := by
  cases h with
  | taken _ _ h => rw [h _ rfl] at herror; cases herror
  | refused used hviable h =>
    rw [h] at herror
    exact ⟨used, _, _, rfl, Except.error.inj herror, hviable, h⟩
  | missed _ h => rw [h] at herror; cases herror
  | other h he => rw [h] at herror; cases herror; cases he

theorem Prompt.of_unexpectedEnd (h : Prompt parser Viable tokens) (herror : parser tokens = .error .unexpectedEnd) :
    Viable tokens := by
  cases h with
  | taken _ _ h => rw [h _ rfl] at herror; cases herror
  | refused _ _ h => rw [h] at herror; cases herror
  | missed hviable _ => exact hviable
  | other h he => rw [h] at herror; cases herror; cases he

theorem prompt_giving {a : α} : Prompt (giving a) Viable tokens := .taken [] a fun _ _ => rfl

end

/-! ### Single tokens -/

section
variable {Viable : List Token → Prop}

theorem prompt_closing {opened : Nat} : Prompt (closing opened) Viable tokens := by
  cases tokens with
  | nil => exact .other rfl rfl
  | cons token rest =>
    by_cases h : token.isParen ')' = true
    · exact .taken [token] () fun rest' _ => closing_eq_ok.mpr ⟨token, rfl, h⟩
    · exact .other (by simp only [closing, h]; rfl) rfl

theorem prompt_opening {after : String} : Prompt (opening extent after) Viable tokens := by
  cases tokens with
  | nil => exact .other rfl rfl
  | cons token rest =>
    by_cases h : token.isParen '(' = true
    · exact .taken [token] token.position fun rest' _ => opening_eq_ok.mpr ⟨token, rfl, h, rfl⟩
    · exact .other (by simp only [opening, h]; rfl) rfl

theorem prompt_betweenAnd : Prompt (betweenAnd extent) Viable tokens := by
  cases tokens with
  | nil => exact .other rfl rfl
  | cons token rest =>
    by_cases h : token.isOperator "AND" = true
    · exact .taken [token] () fun rest' _ => betweenAnd_eq_ok.mpr ⟨token, rfl, h⟩
    · exact .other (by simp only [betweenAnd, h]; rfl) rfl

theorem sound_opening {after : String} :
    Sound (opening extent after) fun used opened =>
      ∃ token, used = [token] ∧ token.isParen '(' = true ∧ token.position = opened := by
  intro tokens opened rest h
  obtain ⟨token, rfl, hparen, hopened⟩ := opening_eq_ok.mp h
  exact ⟨[token], rfl, token, rfl, hparen, hopened⟩

theorem sound_closing {opened : Nat} :
    Sound (closing opened) fun used _ => ∃ token, used = [token] ∧ token.isParen ')' = true := by
  intro tokens a rest h
  obtain ⟨token, rfl, hparen⟩ := closing_eq_ok.mp h
  exact ⟨[token], rfl, token, rfl, hparen⟩

theorem sound_betweenAnd :
    Sound (betweenAnd extent) fun used _ => ∃ token, used = [token] ∧ token.isOperator "AND" = true := by
  intro tokens a rest h
  obtain ⟨token, rfl, hand⟩ := betweenAnd_eq_ok.mp h
  exact ⟨[token], rfl, token, rfl, hand⟩

theorem startsWithParen_congr {paren : Char} {other : List Token} (h : rest.head? = other.head?) :
    startsWithParen paren rest = startsWithParen paren other := by
  cases rest <;> cases other <;> simp_all [startsWithParen]

theorem leaf_eq_error {e : ParseError} (h : leaf token = .error e) : e = unexpected token := by
  unfold leaf at h
  split at h
  · split at h <;> cases h
    rfl
  all_goals cases h
  all_goals rfl

theorem ordered_eq_error {left right : Node} {operator : Comparison} {e : ParseError}
    (h : ordered left operator right = .error e) : ∃ field other, e = .invalidComparison field operator other := by
  unfold ordered at h
  split at h
  · cases h
    exact ⟨_, _, rfl⟩
  · split at h <;> cases h
  · split at h <;> cases h
  · cases h

end

end Parser
end GridFilter
