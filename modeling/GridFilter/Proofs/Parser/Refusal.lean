import GridFilter.Proofs.Parser.Complete
import GridFilter.Proofs.Parser.Prompt
import GridFilter.Proofs.Token.Tiling

/-! Refused filters. Where the parser finds a token without a use, others behind what stands in front of it make up a
    filter, but none does behind the token itself; where it misses one, others behind the whole list make up a filter. -/

namespace GridFilter

namespace Grammar

variable {levels : Nat} {used : List Token}

/-! ### Completions -/

/-- Tokens that others can follow so that all of them spell something. -/
def Completable {α : Type} (Spelled : List Token → α → Prop) (used : List Token) : Prop :=
  ∃ more a, Spelled (used ++ more) a

section
variable {α β : Type} {Spelled : List Token → α → Prop} {More : List Token → β → Prop}

theorem Completable.of_spelled {a : α} (h : Spelled used a) : Completable Spelled used :=
  ⟨[], a, by rwa [List.append_nil]⟩

theorem Completable.mono (h : Completable Spelled used) (hmore : ∀ tokens a, Spelled tokens a → ∃ b, More tokens b) :
    Completable More used := by
  obtain ⟨more, a, hspelled⟩ := h
  obtain ⟨b, hb⟩ := hmore _ _ hspelled
  exact ⟨more, b, hb⟩

/-- A part can be completed between other tokens. -/
theorem Completable.around (h : Completable Spelled used) (front back : List Token)
    (hmore : ∀ tokens a, Spelled tokens a → ∃ b, More (front ++ (tokens ++ back)) b) :
    Completable More (front ++ used) := by
  obtain ⟨more, a, hspelled⟩ := h
  obtain ⟨b, hb⟩ := hmore _ _ hspelled
  exact ⟨more ++ back, b, by simpa using hb⟩

/-- So can a part behind other tokens and a sign. -/
theorem Completable.behind (h : Completable Spelled used) (front : List Token) (sign : Token)
    (hmore : ∀ tokens a, Spelled tokens a → ∃ b, More (front ++ sign :: tokens) b) :
    Completable More (front ++ sign :: used) := by
  obtain ⟨more, a, hspelled⟩ := h
  obtain ⟨b, hb⟩ := hmore _ _ hspelled
  exact ⟨more, b, by simpa using hb⟩

end

/-- A null, which completes whatever lacks a value. -/
def nullToken : Token := ⟨.null, "NULL", 0⟩

/-- A comma, behind which a list goes on. -/
def commaToken : Token := ⟨.comma, ",", 0⟩

/-- The parenthesis that completes a list or a group. -/
def closeToken : Token := ⟨.paren, ")", 0⟩

/-- The sign that completes the lower end of a range. -/
def andToken : Token := ⟨.operator, "AND", 0⟩

theorem spells_nullToken : Spells nullToken (.literal .null) := .null rfl

theorem isParen_closeToken : closeToken.isParen ')' = true := by decide

theorem isOperator_andToken : andToken.isOperator "AND" = true := by decide

theorem Bounded.expression_nullToken (h : 0 < levels) : Bounded.Expression levels [nullToken] (.literal .null) := by
  obtain ⟨levels, rfl⟩ := Nat.exists_eq_succ_of_ne_zero (by omega : levels ≠ 0)
  exact .conjunction (.condition (.term (.value spells_nullToken)))

end Grammar

namespace Parser
open Grammar

variable {extent : Extent} {levels least : Nat} {token : Token} {tokens : List Token}

/-! ### Lists -/

section
variable {α : Type} {item : Parser α} {Item : List Token → α → Prop}

theorem sound_itemsBehind (hsound : Sound item Item) : Sound (itemsBehind item) fun _ _ => True := by
  intro tokens others rest h
  rcases sound_moreItems hsound h with ⟨-, rfl⟩ | ⟨comma, used, rfl, -, -⟩
  · exact ⟨[], rfl, trivial⟩
  · exact ⟨comma :: used, rfl, trivial⟩

/-- Tokens that go on with a list, behind an item of it. -/
def GoesOn (Item : List Token → α → Prop) (used : List Token) : Prop :=
  ∃ comma others, used = comma :: others ∧ comma.kind = .comma ∧ Completable (Separated Item) others

/-- A list is read promptly if its first item is, and what follows that item. -/
theorem prompt_commaList_of (hsound : Sound item Item) (hitem : Prompt item (Completable Item) tokens)
    (hbehind : ∀ used behind, tokens = used ++ behind → Prompt (itemsBehind item) (GoesOn Item) behind) :
    Prompt (commaList item) (Completable (Separated Item)) tokens := by
  rw [commaList_eq]
  refine (hitem.mono fun used h => ?_).andThen hsound fun used first behind htokens _ hfirst => ?_
  · exact h.mono fun _ _ h => ⟨_, .one h⟩
  · refine ((hbehind used behind htokens).mono ?_).andThen (sound_itemsBehind hsound) fun _ _ _ _ _ _ => prompt_giving
    rintro _ ⟨comma, others, rfl, hcomma, hothers⟩
    exact hothers.behind used comma fun tokens items h => ⟨first :: items, .more hfirst hcomma h⟩

theorem prompt_itemsBehind (hsound : Sound item Item) (hitem : ∀ tokens, Prompt item (Completable Item) tokens)
    (tokens : List Token) : Prompt (itemsBehind item) (GoesOn Item) tokens := by
  induction hlength : tokens.length using Nat.strongRecOn generalizing tokens with
  | ind length ih =>
    by_cases hstop : ∀ token ∈ tokens.head?, token.kind ≠ .comma
    · exact .taken [] [] fun rest' hrest => itemsBehind_stop (hrest ▸ hstop)
    · obtain ⟨comma, hhead, hcomma⟩ : ∃ comma ∈ tokens.head?, comma.kind = .comma := by simpa using hstop
      obtain ⟨rest, rfl⟩ := List.head?_eq_some_iff.mp hhead
      refine Prompt.cons (fun rest => itemsBehind_comma hsound hcomma) ?_
      refine (prompt_commaList_of hsound (hitem rest) fun used behind hrest => ?_).mono
        fun used h => ⟨comma, used, rfl, hcomma, h⟩
      have hshort : behind.length < length := by
        rw [← hlength, hrest, List.length_cons, List.length_append]
        omega
      exact ih _ hshort behind rfl

theorem prompt_commaList (hsound : Sound item Item) (hitem : ∀ tokens, Prompt item (Completable Item) tokens)
    (tokens : List Token) : Prompt (commaList item) (Completable (Separated Item)) tokens :=
  prompt_commaList_of hsound (hitem tokens) fun _ behind _ => prompt_itemsBehind hsound hitem behind

end

/-! ### Terms and comparands -/

/-- A comparand that anything is compared with: it is no field. -/
def ComparandValue (levels : Nat) (used : List Token) (node : Node) : Prop :=
  Bounded.Comparand levels used node ∧ node.isField = false

section
variable {arguments items : Parser (List Node)} {group operand : Parser Node}

theorem prompt_call (hkind : token.kind = .function) (hsound : Sound arguments (Below Bounded.Arguments levels))
    (harguments : ∀ tokens, Prompt arguments (Completable (Below Bounded.Arguments levels)) tokens)
    (tokens : List Token) :
    Prompt (call extent arguments token) (fun used => Completable (Bounded.Call levels) (token :: used)) tokens := by
  by_cases hname : Text.sameLetters token.text Node.functionName = true
  · rw [call_eq hname]
    refine prompt_opening.andThen sound_opening ?_
    rintro _ opened rest - - ⟨openParen, rfl, hopened, -⟩
    refine ((harguments rest).mono fun used h => ?_).andThen hsound fun _ nodes _ _ _ _ => ?_
    · -- One argument more makes up for a call that has only one yet.
      refine h.around [token, openParen] [commaToken, nullToken, closeToken] ?_
      rintro tokens nodes ⟨lower, rfl, hnodes⟩
      have hleast : Node.leastArguments ≤ (nodes ++ [Node.literal .null]).length := by
        have hpos := hnodes.length_pos
        simp only [Node.leastArguments, List.length_append, List.length_singleton]
        omega
      have hnull := Bounded.expression_nullToken hnodes.pos
      have hmore := Bounded.Arguments.concat (rfl : commaToken.kind = .comma) hnull hnodes
      have hcall := Bounded.Call.isNull hkind hname hopened hmore hleast isParen_closeToken
      exact ⟨_, by simpa using hcall⟩
    · refine prompt_closing.andThen sound_closing fun _ _ _ _ _ _ => ?_
      by_cases hleast : nodes.length < Node.leastArguments
      · exact .other (if_pos hleast) rfl
      · exact .taken [] _ fun _ _ => if_neg hleast
  · exact .other (if_neg hname) rfl

theorem prompt_primary {Group Spelled Primary : List Token → Node → Prop}
    (hvalue : Primary [nullToken] (.literal .null))
    (hcall : ∀ tokens node, Bounded.Call levels tokens node → Primary tokens node)
    (hgrouped : ∀ opened inner node closed, opened.isParen '(' = true → Group inner node →
      closed.isParen ')' = true → Primary (opened :: (inner ++ [closed])) node)
    (hsound : Sound group Spelled) (hgroup : ∀ tokens, Prompt group (Completable Group) tokens)
    (hsound' : Sound arguments (Below Bounded.Arguments levels))
    (harguments : ∀ tokens, Prompt arguments (Completable (Below Bounded.Arguments levels)) tokens)
    (tokens : List Token) : Prompt (primary extent group arguments) (Completable Primary) tokens := by
  have hnil : Completable Primary [] := ⟨[nullToken], _, hvalue⟩
  cases tokens with
  | nil => exact .missed hnil rfl
  | cons token rest =>
    by_cases hopened : token.isParen '(' = true
    · refine Prompt.cons (fun rest => primary_group hopened) ?_
      refine ((hgroup rest).mono fun used h => ?_).andThen hsound fun _ node _ _ _ _ => ?_
      · exact h.around [token] [closeToken] fun inner node h => ⟨node, hgrouped _ _ _ _ hopened h isParen_closeToken⟩
      · exact prompt_closing.andThen sound_closing fun _ _ _ _ _ _ => prompt_giving
    · cases hkind : token.kind with
      | paren => exact .refused [] hnil fun tail => by simp [primary, hkind, hopened]
      | function =>
        refine Prompt.cons (fun rest => primary_call hkind) ?_
        exact (prompt_call hkind hsound' harguments rest).mono fun used h => h.mono fun _ _ h => ⟨_, hcall _ _ h⟩
      | identifier =>
        cases hparen : startsWithParen '(' rest with
        | true => exact .other (by simp only [primary, hkind, hparen]; rfl) rfl
        | false =>
          refine .taken [token] (.field token.text) fun rest' hrest => ?_
          rw [← startsWithParen_congr hrest] at hparen
          simp [primary, hkind, hparen]
      | _ =>
        cases hleaf : leaf token with
        | error e =>
          obtain rfl := leaf_eq_error hleaf
          exact .refused [] hnil fun tail => by simp [primary, hkind, hleaf, bind, Except.bind]
        | ok node =>
          exact .taken [token] node fun rest' _ => by simp [primary, hkind, hleaf, bind, Except.bind, pure, Except.pure]

/-! ### Comparisons -/

theorem prompt_comparison {left : Node} {operator : Comparison} {sign : Token} (hleft : left.isCondition = false)
    (hsound : Sound operand (Bounded.Comparand levels))
    (hoperand : ∀ tokens, Prompt operand (Completable (ComparandValue levels)) tokens)
    (hsound' : Sound items (Below Bounded.Items levels))
    (hitems : ∀ tokens, Prompt items (Completable (Below Bounded.Items levels)) tokens) (tokens : List Token) :
    Prompt (comparison extent operand items left operator sign) (Completable (Compared levels left operator)) tokens := by
  by_cases hlist : operator = .isIn ∨ operator = .notIn
  · rw [comparison_list hleft hlist]
    refine prompt_opening.andThen sound_opening ?_
    rintro _ opened rest - - ⟨openParen, rfl, hopened, -⟩
    refine ((hitems rest).mono fun used h => ?_).andThen hsound' fun _ nodes _ _ _ _ => ?_
    · refine h.around [openParen] [closeToken] ?_
      rintro inner nodes ⟨lower, rfl, hnodes⟩
      exact ⟨_, .intro hleft (.list hlist hopened hnodes isParen_closeToken) .list⟩
    · exact prompt_closing.andThen sound_closing fun _ _ _ _ _ _ => prompt_giving
  · obtain ⟨hin, hnot⟩ := not_or.mp hlist
    by_cases hbetween : operator = .between
    · subst hbetween
      rw [comparison_range hleft]
      refine ((hoperand tokens).mono fun used h => ?_).andThen hsound fun first low rest _ _ hlow => ?_
      · refine h.around [] [andToken, nullToken] fun inner node h => ?_
        exact ⟨_, .intro hleft (.range h.1 isOperator_andToken (.value spells_nullToken)) .range⟩
      · refine prompt_betweenAnd.andThen sound_betweenAnd ?_
        rintro _ - behind - - ⟨sign, rfl, hsign⟩
        refine ((hoperand behind).mono fun used h => ?_).andThen hsound fun _ _ _ _ _ _ => prompt_giving
        exact h.behind first sign fun inner node h => ⟨_, .intro hleft (.range hlow hsign h.1) .range⟩
    · rw [comparison_single hleft hin hnot hbetween]
      refine ((hoperand tokens).mono fun used h => ?_).andThen hsound fun _ right rest _ _ _ => ?_
      · -- No comparison is refused for the sake of a right side that is no field.
        refine h.mono fun inner node h => ?_
        exact ⟨_, .intro hleft (.single hin hnot hbetween h.1) (.kept fun hfield => by simp [h.2] at hfield)⟩
      · cases hordered : ordered left operator right with
        | error e =>
          obtain ⟨field, other, rfl⟩ := ordered_eq_error hordered
          exact .other rfl rfl
        | ok node => exact prompt_giving

/-! ### Chains of operators -/

end

section
variable {right : Nat → Parser Node} {compared : Node → Comparison → Token → Parser Node} {left : Node}
  {used : List Token}

theorem exists_of_not_stops (h : ¬Stops least tokens) : ∃ sign rest found, tokens = sign :: rest ∧
    BinaryOperator.ofToken? sign = some found ∧ least ≤ found.precedence := by
  cases tokens with
  | nil => exact absurd (by simp [Stops]) h
  | cons sign rest =>
    cases hfound : BinaryOperator.ofToken? sign with
    | none => exact absurd (by simp [Stops, hfound]) h
    | some found =>
      refine ⟨sign, rest, found, rfl, hfound, Nat.not_lt.mp fun hless => h ?_⟩
      simpa [Stops, hfound] using hless

theorem Stops.congr {other : List Token} (h : Stops least tokens) (hhead : other.head? = tokens.head?) :
    Stops least other := by
  rwa [Stops, hhead]

theorem Front.congr {other : List Token} (h : Front levels least used left tokens)
    (hhead : other.head? = tokens.head?) : Front levels least used left other :=
  ⟨h.term, h.phrase, h.conjunction.imp id fun hstops => hstops.congr hhead⟩

/-- A connective goes on to a whole phrase wherever its right side can be completed. -/
theorem Front.completable_connective {connective : Connective} {sign : Token} {rest second : List Token}
    (h : Front levels least used left (sign :: rest)) (hsign : sign.isOperator connective.symbol = true)
    (hleast : least ≤ connective.precedence)
    (hsecond : Completable (Phrase levels (connective.precedence + 1)) second) :
    Completable (Phrase (levels + 1) least) (used ++ sign :: second) := by
  refine hsecond.behind used sign fun second node hphrase => ⟨.logical connective left node, ?_⟩
  have hahead : Front levels least used left (sign :: (second ++ [])) := h.congr rfl
  exact (hahead.connective hsign hleast hphrase (by simp [Stops])).phrase

/-- So does a comparison. -/
theorem Front.completable_comparison {operator : Comparison} {sign : Token} {others : List Token}
    (h : Front levels least used left tokens) (hsign : sign.isOperator operator.symbol = true)
    (hothers : Completable (Compared levels left operator) others) :
    Completable (Phrase (levels + 1) least) (used ++ sign :: others) := by
  refine hothers.behind used sign fun others node hcompared => ⟨node, ?_⟩
  have hnext : Front levels least (used ++ sign :: others) node [] := h.comparison hsign hcompared
  exact hnext.phrase

theorem prompt_chainBehind
    (hsoundRight : ∀ least tokens node rest, right least tokens = .ok (node, rest) →
      ∃ used, tokens = used ++ rest ∧ Phrase levels least used node ∧ Stops least rest)
    (hright : ∀ least tokens, Prompt (right least) (Completable (Phrase levels least)) tokens)
    (hsoundCompared : ∀ left operator sign, Sound (compared left operator sign) (Compared levels left operator))
    (hcompared : ∀ left operator sign tokens, left.isCondition = false →
      Prompt (compared left operator sign) (Completable (Compared levels left operator)) tokens)
    (hcondition : ∀ left operator sign tokens, left.isCondition = true →
      compared left operator sign tokens = .error (unexpected sign))
    (hfront : Front levels least used left tokens) :
    Prompt (chainBehind right compared least left)
      (fun more => Completable (Phrase (levels + 1) least) (used ++ more)) tokens := by
  have hsound least : Sound (right least) (Phrase levels least) := by
    intro tokens node rest h
    obtain ⟨used, rfl, hused, -⟩ := hsoundRight _ _ _ _ h
    exact ⟨used, rfl, hused⟩
  have hshort : Shortens right compared := ⟨(hsound _).length_le, (hsoundCompared _ _ _).length_le⟩
  -- What has been read grows by an operator and its right side, and stays a front of what is left.
  induction hlength : tokens.length using Nat.strongRecOn generalizing tokens used left with
  | ind length ih =>
    by_cases hstops : Stops least tokens
    · exact .taken [] left fun rest' hrest => climb_of_stops (hstops.congr hrest) (Nat.le_refl _)
    · obtain ⟨sign, rest, found, rfl, hfound, hleast⟩ := exists_of_not_stops hstops
      -- Behind a right side the chain goes on with fewer tokens.
      have goesOn {second behind : List Token} {node : Node} (hrest : rest = second ++ behind)
          (hnext : Front levels least (used ++ sign :: second) node behind) :
          Prompt (chainBehind right compared least node)
            (fun more => Completable (Phrase (levels + 1) least) (used ++ sign :: (second ++ more))) behind := by
        have hshorter : behind.length < length := by
          rw [← hlength, hrest, List.length_cons, List.length_append]
          omega
        exact (ih _ hshorter hnext rfl).mono fun more h => by simpa using h
      cases found with
      | connective connective =>
        have hsign := ofToken?_eq_connective.mp hfound
        refine Prompt.cons (fun rest => chainBehind_connective hshort hsign hleast) ?_
        refine ((hright _ rest).mono fun _ h => hfront.completable_connective hsign hleast h).andThen (hsound _) ?_
        intro second node behind hrest hok hsecond
        obtain ⟨-, -, -, hstops'⟩ := hsoundRight _ _ _ _ hok
        exact goesOn hrest ((hrest ▸ hfront).connective hsign hleast hsecond hstops')
      | comparison operator =>
        have hsign := ofToken?_eq_comparison.mp hfound
        by_cases hvalue : left.isCondition = true
        · -- The sign itself has no use: what stands in front of it is a phrase already.
          refine .refused [] (.of_spelled (by simpa using hfront.phrase)) fun tail => ?_
          rw [List.nil_append, chainBehind_comparison hshort hsign hleast]
          exact andThen_of_error (hcondition _ _ _ _ hvalue)
        · refine Prompt.cons (fun rest => chainBehind_comparison hshort hsign hleast) ?_
          refine ((hcompared _ _ _ rest (by simpa using hvalue)).mono
            fun _ h => hfront.completable_comparison hsign h).andThen (hsoundCompared _ _ _) ?_
          intro others node behind hrest _ hothers
          exact goesOn hrest (hfront.comparison hsign hothers)

end

/-! ### All levels -/

theorem isField_of_call {used : List Token} {node : Node} (h : Bounded.Call levels used node) : node.isField = false := by
  cases h
  rfl

/-- The four parsers of a level refuse promptly. -/
structure PromptAt (extent : Extent) (levels : Nat) : Prop where
  expression : ∀ least tokens, Prompt (expression extent levels least) (Completable (Phrase levels least)) tokens
  nested : ∀ tokens, Prompt (nested extent levels) (Completable (Below ComparandValue levels)) tokens
  arguments : ∀ tokens, Prompt (arguments extent levels) (Completable (Below Bounded.Arguments levels)) tokens
  items : ∀ tokens, Prompt (items extent levels) (Completable (Below Bounded.Items levels)) tokens

theorem PromptAt.term (h : PromptAt extent levels) (tokens : List Token) :
    Prompt (primary extent (Parser.expression extent levels 0) (Parser.arguments extent levels))
      (Completable (Bounded.Term levels)) tokens :=
  prompt_primary (.value spells_nullToken) (fun _ _ => .call) (fun _ _ _ _ => .group) (soundAt extent levels).whole
    (h.expression 0) (soundAt extent levels).arguments h.arguments tokens

theorem PromptAt.operand (h : PromptAt extent levels) (tokens : List Token) :
    Prompt (operand extent levels) (Completable (ComparandValue levels)) tokens := by
  refine prompt_primary ⟨.value spells_nullToken, rfl⟩ (fun _ _ h => ⟨.call h, isField_of_call h⟩) ?_
    (soundAt extent levels).nested h.nested (soundAt extent levels).arguments h.arguments tokens
  rintro opened inner node closed hopened ⟨lower, rfl, hinner, hfield⟩ hclosed
  exact ⟨.nested hopened hinner hclosed, hfield⟩

theorem promptAt (extent : Extent) (levels : Nat) : PromptAt extent levels := by
  induction levels with
  | zero =>
    exact ⟨fun _ _ => .other rfl rfl, fun _ => .other rfl rfl, fun _ => .other rfl rfl, fun _ => .other rfl rfl⟩
  | succ levels ih =>
    have hsound : SoundAt extent levels := soundAt extent levels
    refine ⟨fun least tokens => ?_, fun tokens => ?_, fun tokens => ?_, fun tokens => ?_⟩
    · rw [expression_eq]
      refine ((ih.term tokens).mono fun used h => ?_).andThen hsound.term fun used left behind _ _ hleft => ?_
      · exact h.mono fun _ node h => ⟨node, phrase_of_condition (.term h)⟩
      · refine prompt_chainBehind hsound.expression ih.expression (sound_comparison hsound.operand hsound.items) ?_ ?_
          (front_of_condition (.term hleft) (.inl hleft))
        · exact fun _ _ _ tokens hvalue =>
            prompt_comparison hvalue hsound.operand ih.operand hsound.items ih.items tokens
        · exact fun _ _ _ _ hcondition => if_pos hcondition
    · exact (ih.operand tokens).mono fun used h => h.mono fun _ node h => ⟨node, levels, rfl, h⟩
    · refine (prompt_commaList hsound.whole (ih.expression 0) tokens).mono fun used h => ?_
      exact h.mono fun _ nodes h => ⟨nodes, levels, rfl, arguments_of_separated h⟩
    · have hitem tokens : Prompt (operand extent levels) (Completable (Bounded.Comparand levels)) tokens :=
        (ih.operand tokens).mono fun used h => h.mono fun _ node h => ⟨node, h.1⟩
      refine (prompt_commaList hsound.operand hitem tokens).mono fun used h => ?_
      exact h.mono fun _ nodes h => ⟨nodes, levels, rfl, items_of_separated h⟩

end Parser

/-! ### Whole filters -/

namespace ParsedFilter
open Grammar GridFilter.Parser

variable {maxDepth : Nat} {known : List String} {tokens used : List Token} {token : Token}

/-- A list of tokens is read with every limit on the depth that is high enough. -/
def Accepted (known : List String) (tokens : List Token) : Prop :=
  ∃ enough, ∀ maxDepth, enough ≤ maxDepth → ∃ parsed, ofTokens maxDepth known tokens = .ok parsed

theorem accepted_of_completable (h : Completable Expression used) : ∃ more, Accepted known (used ++ more) := by
  obtain ⟨more, node, hnode⟩ := h
  refine ⟨more, 4 * Token.peak (used ++ more) + 3, fun maxDepth hdepth => ?_⟩
  exact ⟨_, (gives_ofTokens hnode).resolve_left (not_deep_ofTokens hdepth)⟩

theorem not_ofTokens_of_not_completable (h : ¬Completable Expression used) (more : List Token) (maxDepth : Nat)
    (known : List String) (parsed : ParsedFilter) : ofTokens maxDepth known (used ++ more) ≠ .ok parsed :=
  fun hparsed => h ⟨more, parsed.ast, expression_of_ofTokens hparsed⟩

theorem completable_of_phrase {levels : Nat} (h : Completable (Phrase levels 0) used) :
    Completable Expression used :=
  h.mono fun _ node h => ⟨node, Bounded.Expression.plain h⟩

/-- What the parser makes of misplaced tokens: it refuses them while it reads the expression, or behind it. -/
theorem ofTokens_misplaced {e : ParseError} (h : ofTokens maxDepth known tokens = .error e)
    (he : isMisplaced e = true) : ∃ extent, expression extent maxDepth 0 tokens = .error e ∨
      ∃ ast token tail, expression extent maxDepth 0 tokens = .ok (ast, token :: tail) ∧ e = unexpected token := by
  rw [ofTokens_eq] at h
  split at h
  · cases h
    cases he
  · next last _ =>
    refine ⟨⟨last.stop, maxDepth⟩, ?_⟩
    cases hexpression : expression ⟨last.stop, maxDepth⟩ maxDepth 0 tokens with
    | error e' =>
      rw [hexpression] at h
      cases h
      exact .inl rfl
    | ok result =>
      obtain ⟨ast, rest⟩ := result
      rw [hexpression] at h
      cases rest with
      | nil => cases h
      | cons token tail => cases h; exact .inr ⟨ast, token, tail, rfl, rfl⟩

/-- Tokens behind which the parser never comes to the end of a list are the front of no filter. -/
theorem not_completable (extent : Extent) (levels : Nat)
    (h : ∀ tail node, ¬Gives (expression extent levels 0 (used ++ token :: tail)) (node, [])) :
    ¬Completable Expression (used ++ [token]) := by
  rintro ⟨more, node, hnode⟩
  rw [List.append_assoc, List.singleton_append] at hnode
  exact h more node (hnode.gives extent levels)

/-- A token that the parser refuses as having no use comes behind the front of a filter, but is in none there. -/
theorem ofTokens_unexpectedToken {found : String} {position : Nat}
    (h : ofTokens maxDepth known tokens = .error (.unexpectedToken found position)) :
    ∃ used token tail, tokens = used ++ token :: tail ∧ unexpected token = .unexpectedToken found position ∧
      Completable Expression used ∧ ¬Completable Expression (used ++ [token]) := by
  obtain ⟨extent, hexpression | ⟨ast, token, tail, hexpression, he⟩⟩ := ofTokens_misplaced h rfl
  · obtain ⟨used, token, tail, rfl, he, hviable, hrefused⟩ :=
      ((promptAt extent maxDepth).expression 0 tokens).of_unexpectedToken hexpression
    refine ⟨used, token, tail, rfl, he, completable_of_phrase hviable, ?_⟩
    refine not_completable extent maxDepth fun tail' node hgives => ?_
    rw [hrefused tail'] at hgives
    simp [Gives, Deep, unexpected] at hgives
  · -- The parser takes the same expression whatever follows the token, and never comes to the end.
    obtain ⟨used, rfl, hused⟩ := (soundAt extent maxDepth).whole _ _ _ hexpression
    refine ⟨used, token, tail, rfl, he.symm, .of_spelled hused.plain, ?_⟩
    refine not_completable extent maxDepth fun tail' node hgives => ?_
    have htaken : expression extent maxDepth 0 (used ++ token :: tail') = .ok (ast, token :: tail') :=
      ((promptAt extent maxDepth).expression 0 _).of_ok hexpression rfl
    rw [htaken] at hgives
    simp [Gives, Deep] at hgives

/-- Tokens behind which the parser misses one are the front of a filter. -/
theorem ofTokens_unexpectedEnd (h : ofTokens maxDepth known tokens = .error .unexpectedEnd) :
    Completable Expression tokens := by
  obtain ⟨extent, hexpression | ⟨ast, token, tail, -, he⟩⟩ := ofTokens_misplaced h rfl
  · exact completable_of_phrase (((promptAt extent maxDepth).expression 0 tokens).of_unexpectedEnd hexpression)
  · cases he

/-- The reasons that the parser gives for refusing the tokens of a text are about the first place that is wrong. If it
    refuses a token as having no use, this is the only token at the position that it names; the tokens in front of it
    can be continued to a filter, and no filter begins with these tokens and the refused one, whatever the limit on the
    depth is. If it misses a token, the whole list can be continued to a filter. -/
theorem ofTokens_offender {text : String} {tokens : List Token} (htext : Token.ofText text = .ok tokens)
    (maxDepth : Nat) (known : List String) :
    (∀ found position, ofTokens maxDepth known tokens = .error (.unexpectedToken found position) →
      ∃ k, (∃ token, tokens[k]? = some token ∧ token.text = found ∧ token.position = position) ∧
        (∀ j other, tokens[j]? = some other → other.position = position → j = k) ∧
        (∃ more, Accepted known (tokens.take k ++ more)) ∧
        ∀ more limit names parsed, ofTokens limit names (tokens.take (k + 1) ++ more) ≠ .ok parsed) ∧
      (ofTokens maxDepth known tokens = .error .unexpectedEnd → ∃ more, Accepted known (tokens ++ more)) := by
  refine ⟨fun found position h => ?_, fun h => accepted_of_completable (ofTokens_unexpectedEnd h)⟩
  obtain ⟨used, token, tail, rfl, he, hused, hoffends⟩ := ofTokens_unexpectedToken h
  cases he
  have htoken : (used ++ token :: tail)[used.length]? = some token := by simp
  refine ⟨used.length, ⟨token, htoken, rfl, rfl⟩, fun j other hother hposition => ?_, ?_, ?_⟩
  · exact Token.eq_of_position (Token.Lexes.pairwise_position (Token.ofChars_eq_ok.mp htext)) hother htoken hposition
  · rw [List.take_left]
    exact accepted_of_completable hused
  · intro more limit names parsed
    rw [List.take_length_add_append]
    exact not_ofTokens_of_not_completable hoffends more limit names parsed

/-- A call whose range lacks its upper end. -/
def openRange : String := "ISNULL(x OR y BETWEEN 1 AND , 2)"

/-- Its tokens; the comma has no use where it stands. -/
def openRangeTokens : List Token := [⟨.function, "ISNULL", 0⟩, ⟨.paren, "(", 6⟩, ⟨.identifier, "x", 7⟩,
  ⟨.operator, "OR", 9⟩, ⟨.identifier, "y", 12⟩, ⟨.operator, "BETWEEN", 14⟩, ⟨.number, "1", 22⟩,
  ⟨.operator, "AND", 24⟩, ⟨.comma, ",", 28⟩, ⟨.number, "2", 30⟩, ⟨.paren, ")", 31⟩]

theorem ofTokens_offender_openRange : Token.ofText openRange = .ok openRangeTokens ∧
    ofTokens 4 [] openRangeTokens = .error (.unexpectedToken "," 28) ∧
    (∃ more, Accepted [] (openRangeTokens.take 8 ++ more)) ∧
    ∀ more limit names parsed, ofTokens limit names (openRangeTokens.take 9 ++ more) ≠ .ok parsed := by
  have htext : Token.ofText openRange = .ok openRangeTokens := by rfl
  have hrefused : ofTokens 4 [] openRangeTokens = .error (.unexpectedToken "," 28) := by
    rw [ofTokens_eq]
    rfl
  obtain ⟨k, -, honly, hcompleted, hoffends⟩ := (ofTokens_offender htext 4 []).1 "," 28 hrefused
  obtain rfl : 8 = k := honly 8 ⟨.comma, ",", 28⟩ rfl rfl
  exact ⟨htext, hrefused, hcompleted, hoffends⟩

end ParsedFilter

end GridFilter
