import GridFilter.Proofs.Parser.Plain
import GridFilter.Proofs.Parser.Steps

/-! What a run with the cursor gives. Every part of it does what the parser of the same name does with the tokens ahead,
    goes back to the level it began at, and notes the names of the placeholders among the tokens it takes: one at its
    first place, and none twice. So the whole run gives the tree, or the failure, of the parser without the cursor. -/

namespace GridFilter

/-! ### Names among tokens -/

namespace Token

/-- The name in a placeholder. -/
def placeholder? (token : Token) : Option String := if token.kind = .placeholder then some token.text else none

/-- The names in the placeholders among tokens, in order. -/
def placeholders (tokens : List Token) : List String := tokens.filterMap placeholder?

/-- The names that are known once a token has been taken: that in a placeholder is noted where it is new. -/
def noted (known : List String) (token : Token) : List String :=
  match token.placeholder? with
  | some name => Text.noted known name
  | none => known

theorem placeholder?_of_kind {token : Token} {kind : TokenKind} (h : token.kind = kind)
    (hkind : kind ≠ .placeholder) : token.placeholder? = none := by
  rw [placeholder?, h, if_neg hkind]

theorem foldl_noted (known : List String) (tokens : List Token) :
    tokens.foldl noted known = (placeholders tokens).foldl Text.noted known := by
  rw [placeholders, List.foldl_filterMap]
  congr 1
  funext names token
  unfold noted
  cases token.placeholder? <;> rfl

end Token

namespace Parser

variable {α β : Type} {extent : Extent} {cursor : Cursor} {tokens taken rest : List Token} {token : Token}

/-! ### Outcomes -/

/-- The cursor behind tokens that it has taken, as deep as before, with their names noted. -/
def Cursor.past (cursor : Cursor) (taken rest : List Token) : Cursor :=
  { cursor with ahead := rest, names := taken.foldl Token.noted cursor.names }

/-- What a part of a run makes of a cursor, beside what a parser makes of the tokens ahead: both fail for the same
    reason, or both give the same, and the cursor is behind the tokens that the parser takes. -/
inductive Outcome (cursor : Cursor) :
    Except ParseError (α × Cursor) → Except ParseError (α × List Token) → Prop where
  | failed {e : ParseError} : Outcome cursor (.error e) (.error e)
  | done {a : α} {taken rest : List Token} : cursor.ahead = taken ++ rest →
      Outcome cursor (.ok (a, cursor.past taken rest)) (.ok (a, rest))

namespace Outcome

theorem stay {a : α} (h : cursor.ahead = tokens) : Outcome cursor (.ok (a, cursor)) (.ok (a, tokens)) := by
  subst h
  exact .done (List.nil_append _).symm

theorem after {x : Except ParseError (α × Cursor)} {y : Except ParseError (α × List Token)}
    (h : Outcome (cursor.past taken rest) x y) (hahead : cursor.ahead = taken ++ rest) : Outcome cursor x y := by
  cases h with
  | failed => exact .failed
  | @done a more behind hrest =>
    have hpast : (cursor.past taken rest).past more behind = cursor.past (taken ++ more) behind := by
      rw [Cursor.past, Cursor.past, Cursor.past, List.foldl_append]
    rw [hpast]
    refine .done ?_
    rw [List.append_assoc, hahead]
    exact congrArg _ hrest

theorem bind {x : Except ParseError (α × Cursor)} {y : Except ParseError (α × List Token)}
    {f : α × Cursor → Except ParseError (β × Cursor)} {g : α × List Token → Except ParseError (β × List Token)}
    (h : Outcome cursor x y)
    (hnext : ∀ a taken rest, Outcome (cursor.past taken rest) (f (a, cursor.past taken rest)) (g (a, rest))) :
    Outcome cursor (x >>= f) (y >>= g) := by
  cases h with
  | failed => exact .failed
  | done hahead => exact (hnext _ _ _).after hahead

theorem unique {x x' : Except ParseError (α × Cursor)} {y : Except ParseError (α × List Token)}
    (h : Outcome cursor x y) (h' : Outcome cursor x' y) : x = x' := by
  cases h with
  | failed =>
    cases h'
    rfl
  | done hahead =>
    cases h' with
    | done hahead' =>
      rw [List.append_cancel_right (hahead.symm.trans hahead')]

end Outcome

/-! ### Single tokens -/

theorem Cursor.past_one (hkind : token.kind ≠ .placeholder) :
    cursor.past [token] rest = { cursor with ahead := rest } := by
  rw [Cursor.past, List.foldl_cons, List.foldl_nil, Token.noted, Token.placeholder?_of_kind rfl hkind]

theorem Cursor.get_bind {f : Cursor → Reading α} : (get >>= f) cursor = f cursor cursor := rfl

theorem Cursor.next_bind {f : Token → Reading α} (hahead : cursor.ahead = token :: rest) :
    (Cursor.next >>= f) cursor = f token { cursor with ahead := rest } := by
  cases cursor
  cases hahead
  rfl

theorem Outcome.next {f : Token → Reading α} {y : Except ParseError (α × List Token)}
    (hahead : cursor.ahead = token :: rest) (hkind : token.kind ≠ .placeholder)
    (h : Outcome (cursor.past [token] rest) (f token (cursor.past [token] rest)) y) :
    Outcome cursor ((Cursor.next >>= f) cursor) y := by
  rw [Cursor.next_bind hahead, ← Cursor.past_one hkind]
  exact h.after hahead

/-- A parser that takes one token, which is no placeholder. -/
theorem outcome_take {parser : Parser α}
    (h : ∀ {tokens a rest}, parser tokens = .ok (a, rest) →
      ∃ token, tokens = token :: rest ∧ token.kind ≠ .placeholder) :
    Outcome cursor (Cursor.take parser cursor) (parser cursor.ahead) := by
  unfold Cursor.take
  cases hparser : parser cursor.ahead with
  | error e => exact .failed
  | ok result =>
    obtain ⟨a, rest⟩ := result
    obtain ⟨token, hahead, hkind⟩ := h hparser
    have hdone : Outcome cursor (.ok (a, cursor.past [token] rest)) (.ok (a, rest)) := .done hahead
    rw [Cursor.past_one hkind] at hdone
    exact hdone

theorem Cursor.past_placeholder (hkind : token.kind = .placeholder) : cursor.past [token] rest =
    { cursor with ahead := rest, names := Text.noted cursor.names token.text } := by
  rw [Cursor.past, List.foldl_cons, List.foldl_nil, Token.noted, Token.placeholder?, if_pos hkind]

/-- The name of a placeholder is noted when the node of its token is built. -/
theorem outcome_value (hahead : cursor.ahead = token :: rest) :
    Outcome cursor (Cursor.value token { cursor with ahead := rest })
      (leaf token >>= fun node => pure (node, rest)) := by
  have hvalue : Cursor.value token { cursor with ahead := rest } =
      leaf token >>= fun node => pure (node, cursor.past [token] rest) := by
    unfold Cursor.value
    by_cases hkind : token.kind = .placeholder
    · rw [if_pos hkind, Cursor.past_placeholder hkind]
      rfl
    · rw [if_neg hkind, Cursor.past_one hkind]
      rfl
  rw [hvalue]
  cases leaf token with
  | error e => exact .failed
  | ok node => exact .done hahead

/-! ### Parts of a run -/

/-- At a depth, a part of a run does with the tokens ahead what a parser does. -/
structure Follows (extent : Extent) (depth : Nat) (reading : Reading α) (parser : Parser α) : Prop where
  outcome : ∀ cursor : Cursor, cursor.toExtent = extent → cursor.depth = depth →
    Outcome cursor (reading cursor) (parser cursor.ahead)

variable {depth : Nat}

theorem Follows.pure (a : α) : Follows extent depth (pure a) fun tokens => .ok (a, tokens) :=
  ⟨fun _ _ _ => .stay rfl⟩

theorem Follows.throw (e : ParseError) : Follows extent depth (throw e : Reading α) fun _ => .error e :=
  ⟨fun _ _ _ => .failed⟩

theorem Follows.bind {reading : Reading α} {parser : Parser α} {f : α → Reading β}
    {g : α × List Token → Except ParseError (β × List Token)} (h : Follows extent depth reading parser)
    (hnext : ∀ a, Follows extent depth (f a) fun rest => g (a, rest)) :
    Follows extent depth (reading >>= f) fun tokens => parser tokens >>= g :=
  ⟨fun cursor hextent hdepth => (h.outcome cursor hextent hdepth).bind fun a _ _ =>
    (hnext a).outcome _ hextent hdepth⟩

/-- The same, with the rest of the parser told apart from its tokens. -/
theorem Follows.chain {reading : Reading α} {parser : Parser α} {f : α → Reading β} {g : α → Parser β}
    (h : Follows extent depth reading parser) (hnext : ∀ a, Follows extent depth (f a) (g a)) :
    Follows extent depth (reading >>= f) fun tokens => parser tokens >>= fun (a, rest) => g a rest :=
  h.bind hnext

theorem Follows.lift (x : Except ParseError α) :
    Follows extent depth (x : Reading α) fun tokens => x >>= fun a => Pure.pure (a, tokens) := by
  cases x with
  | error e => exact .throw e
  | ok a => exact .pure a

theorem follows_opening (after : String) : Follows extent depth (Cursor.opening after) (opening extent after) where
  outcome := by
    rintro cursor rfl -
    refine outcome_take fun h => ?_
    obtain ⟨token, htokens, hparen, -⟩ := opening_eq_ok.mp h
    exact ⟨token, htokens, by simp [isParen_kind hparen]⟩

theorem follows_betweenAnd : Follows extent depth Cursor.betweenAnd (betweenAnd extent) where
  outcome := by
    rintro cursor rfl -
    refine outcome_take fun h => ?_
    obtain ⟨token, htokens, hand⟩ := betweenAnd_eq_ok.mp h
    exact ⟨token, htokens, by simp [isOperator_kind hand]⟩

theorem follows_closing (opened : Nat) : Follows extent depth (Cursor.take (closing opened)) (closing opened) where
  outcome _ _ _ := by
    refine outcome_take fun h => ?_
    obtain ⟨token, htokens, hparen⟩ := closing_eq_ok.mp h
    exact ⟨token, htokens, by simp [isParen_kind hparen]⟩

/-! ### Parentheses and levels -/

/-- What a parser takes, and the parenthesis behind it. -/
def enclosed (parser : Parser α) (opened : Nat) : Parser α := fun tokens => do
  let (a, rest) ← parser tokens
  let ((), rest) ← closing opened rest
  return (a, rest)

theorem enclosed_bind (parser : Parser α) (opened : Nat) (g : α → Parser β) :
    (enclosed parser opened tokens >>= fun (a, rest) => g a rest) =
      parser tokens >>= fun (a, rest) => closing opened rest >>= fun ((), rest) => g a rest := by
  unfold enclosed
  cases parser tokens with
  | error e => rfl
  | ok result =>
    change (closing opened result.2 >>= fun ((), rest) => Except.ok (result.1, rest)) >>= _ = _
    cases hclosing : closing opened result.2 with
    | error e => simp [bind, Except.bind, hclosing]
    | ok closed => simp [bind, Except.bind, hclosing]

theorem Follows.enclosed_bind {reading : Reading α} {parser : Parser α} {opened : Nat} {f : α → Reading β}
    {g : α → Parser β} (h : Follows extent depth reading (enclosed parser opened))
    (hnext : ∀ a, Follows extent depth (f a) (g a)) : Follows extent depth (reading >>= f) fun tokens =>
      parser tokens >>= fun (a, rest) => closing opened rest >>= fun ((), rest) => g a rest := by
  simpa only [Parser.enclosed_bind] using h.chain hnext

theorem follows_enclosed {inside : Reading α} {parser : Parser α} (h : Follows extent depth inside parser)
    (opened : Nat) : Follows extent depth (Cursor.enclosed inside opened) (enclosed parser opened) :=
  h.bind fun _ => (follows_closing opened).bind fun _ => .pure _

theorem Cursor.enter_eq : Cursor.enter cursor =
    if cursor.maxDepth < cursor.depth + 1 then .error (.tooDeep cursor.maxDepth)
    else .ok ((), { cursor with depth := cursor.depth + 1 }) := by
  change (if cursor.maxDepth < cursor.depth + 1 then throw (.tooDeep cursor.maxDepth) else pure () : Reading Unit)
    { cursor with depth := cursor.depth + 1 } = _
  split <;> rfl

/-- What stands one level deeper is behind the counter, and in front of the way back. -/
theorem Cursor.deeper_eq (inside : Reading α) : Cursor.deeper inside cursor =
    if cursor.maxDepth < cursor.depth + 1 then .error (.tooDeep cursor.maxDepth)
    else inside { cursor with depth := cursor.depth + 1 } >>= fun (a, behind) =>
      pure (a, { behind with depth := behind.depth - 1 }) := by
  have hdeeper : Cursor.deeper inside cursor = Cursor.enter cursor >>= fun (_, entered) =>
      inside entered >>= fun (a, behind) => pure (a, { behind with depth := behind.depth - 1 }) := rfl
  rw [hdeeper, Cursor.enter_eq]
  split <;> rfl

/-- The counter gives up where no level is left, and behind what stands one level deeper it is back where it was. -/
theorem follows_deeper {inside : Reading α} (parser : Nat → Parser α) {levels : Nat}
    (hlevels : depth + levels = extent.maxDepth) (hzero : parser 0 = fun _ => .error (.tooDeep extent.maxDepth))
    (h : ∀ lower, levels = lower + 1 → Follows extent (depth + 1) inside (parser (lower + 1))) :
    Follows extent depth (Cursor.deeper inside) (parser levels) := by
  constructor
  rintro cursor rfl rfl
  rw [Cursor.deeper_eq]
  cases levels with
  | zero =>
    rw [if_pos (by omega), hzero]
    exact .failed
  | succ lower =>
    rw [if_neg (by omega)]
    have hinside := (h lower rfl).outcome { cursor with depth := cursor.depth + 1 } rfl rfl
    generalize inside { cursor with depth := cursor.depth + 1 } = x at hinside ⊢
    generalize parser (lower + 1) cursor.ahead = y at hinside ⊢
    cases hinside with
    | failed => exact .failed
    | done hahead => exact .done hahead

theorem follows_nested {inside : Reading α} (parser : Nat → Parser α) {levels : Nat}
    (hlevels : depth + levels = extent.maxDepth) (hzero : parser 0 = fun _ => .error (.tooDeep extent.maxDepth))
    (h : ∀ lower, levels = lower + 1 → Follows extent (depth + 1) inside (parser (lower + 1))) (opened : Nat) :
    Follows extent depth (Cursor.nested inside opened) (enclosed (parser levels) opened) := by
  refine follows_deeper (fun levels => enclosed (parser levels) opened) hlevels ?_ fun lower hlower =>
    follows_enclosed (h lower hlower) opened
  rw [hzero]
  rfl

/-! ### Lists -/

theorem follows_moreItems {item : Reading α} {parser : Parser α} (h : Follows extent depth item parser) (bound : Nat) :
    Follows extent depth (Cursor.moreItems item bound) (moreItems parser bound) := by
  induction bound with
  | zero => exact .pure []
  | succ bound ih =>
    refine ⟨fun cursor hextent hdepth => ?_⟩
    rw [Cursor.moreItems, Cursor.get_bind]
    cases hahead : cursor.ahead with
    | nil => exact .stay hahead
    | cons token rest =>
      unfold moreItems
      dsimp only
      split
      · next hcomma =>
        have hmore := h.chain fun first => ih.chain fun others => .pure (first :: others)
        exact .next hahead (by simp [hcomma]) (hmore.outcome _ hextent hdepth)
      · exact .stay hahead

theorem follows_commaList {item : Reading α} {parser : Parser α} (h : Follows extent depth item parser) :
    Follows extent depth (Cursor.commaList item) (commaList parser) :=
  h.bind fun _ => ⟨fun cursor hextent hdepth =>
    ((follows_moreItems h _).outcome cursor hextent hdepth).bind fun _ _ _ => .stay rfl⟩

/-! ### Terms, comparisons and chains -/

section
variable {inside : Nat → Reading (List Node)} {group : Nat → Reading Node} {arguments : Parser (List Node)}
  {parser : Parser Node}

theorem follows_enough (nodes : List Node) : Follows extent depth
    (if nodes.length < Node.leastArguments then
      throw (.tooFewArguments Node.functionName Node.leastArguments nodes.length)
    else return Node.isNull nodes) fun tokens =>
    if nodes.length < Node.leastArguments then
      .error (.tooFewArguments Node.functionName Node.leastArguments nodes.length)
    else return (Node.isNull nodes, tokens) := by
  split
  · exact .throw _
  · exact .pure _

theorem follows_call (harguments : ∀ opened, Follows extent depth (inside opened) (enclosed arguments opened))
    (token : Token) : Follows extent depth (Cursor.call inside token) (call extent arguments token) := by
  unfold Cursor.call call
  split
  · refine (follows_opening _).bind fun opened => ?_
    have henough := (harguments opened).enclosed_bind follows_enough
    exact henough
  · exact .throw _

theorem follows_primary (hgroup : ∀ opened, Follows extent depth (group opened) (enclosed parser opened))
    (harguments : ∀ opened, Follows extent depth (inside opened) (enclosed arguments opened)) :
    Follows extent depth (Cursor.primary group inside) (primary extent parser arguments) := by
  refine ⟨fun cursor hextent hdepth => ?_⟩
  unfold Cursor.primary
  cases hahead : cursor.ahead with
  | nil =>
    cases cursor
    cases hahead
    exact .failed
  | cons token rest =>
    -- A placeholder is noted when its node is built: until then its token is taken, but the cursor is not past it.
    have hvalue := outcome_value hahead
    have hpast (hkind : token.kind ≠ .placeholder) : cursor.past [token] rest = { cursor with ahead := rest } :=
      Cursor.past_one hkind
    rw [Cursor.next_bind hahead]
    cases hkind : token.kind with
    | paren =>
      simp only [primary, hkind]
      split
      · rw [← hpast (by simp [hkind])]
        exact ((hgroup _).outcome (cursor.past [token] rest) hextent hdepth).after hahead
      · have hleaf : leaf token = .error (unexpected token) := by simp only [leaf, hkind]
        rw [hleaf] at hvalue
        exact hvalue
    | function =>
      simp only [primary, hkind]
      rw [← hpast (by simp [hkind])]
      exact ((follows_call harguments token).outcome (cursor.past [token] rest) hextent hdepth).after hahead
    | identifier =>
      simp only [primary, hkind]
      rw [Cursor.get_bind]
      dsimp only
      split
      · exact .failed
      · rw [leaf_eq_ok.mpr (.identifier hkind)] at hvalue
        exact hvalue
    | _ =>
      simp only [primary, hkind]
      exact hvalue

theorem follows_comparison {operand : Reading Node} (hoperand : Follows extent depth operand parser)
    (hitems : ∀ opened, Follows extent depth (inside opened) (enclosed arguments opened)) (left : Node)
    (operator : Comparison) (sign : Token) : Follows extent depth (Cursor.comparison operand inside left operator sign)
      (comparison extent parser arguments left operator sign) := by
  unfold Cursor.comparison comparison
  split
  · exact .throw _
  · have hlist (operator : Comparison) (opened : Nat) := (hitems opened).enclosed_bind fun nodes =>
      .pure (Node.comparison left operator (.list nodes))
    cases operator with
    | isIn => exact (follows_opening _).bind (hlist .isIn)
    | notIn => exact (follows_opening _).bind (hlist .notIn)
    | between => exact hoperand.bind fun low => follows_betweenAnd.bind fun _ => hoperand.bind fun high => .pure _
    | _ => exact hoperand.bind fun right => .lift _

theorem ofToken?_kind {found : BinaryOperator} (h : BinaryOperator.ofToken? token = some found) :
    token.kind = .operator := by
  unfold BinaryOperator.ofToken? at h
  split at h
  · next hkind => exact hkind
  · cases h

theorem follows_climb {right : Nat → Reading Node} {right' : Nat → Parser Node}
    {compared : Node → Comparison → Token → Reading Node} {compared' : Node → Comparison → Token → Parser Node}
    {least : Nat} (hright : ∀ least, Follows extent depth (right least) (right' least))
    (hcompared : ∀ left operator sign,
      Follows extent depth (compared left operator sign) (compared' left operator sign)) (bound : Nat) (left : Node) :
    Follows extent depth (Cursor.climb right compared least bound left) (climb right' compared' least bound left) := by
  induction bound generalizing left with
  | zero => exact .pure left
  | succ bound ih =>
    refine ⟨fun cursor hextent hdepth => ?_⟩
    rw [Cursor.climb, Cursor.get_bind]
    cases hahead : cursor.ahead with
    | nil => exact .stay hahead
    | cons sign rest =>
      unfold climb
      dsimp only
      cases hfound : BinaryOperator.ofToken? sign with
      | none => exact .stay hahead
      | some found =>
        dsimp only
        split
        · exact .stay hahead
        · refine .next hahead (by simp [ofToken?_kind hfound]) ?_
          cases found with
          | connective operator =>
            exact ((hright _).chain fun node => ih (.logical operator left node)).outcome _ hextent hdepth
          | comparison operator => exact ((hcompared left operator sign).chain ih).outcome _ hextent hdepth

end

/-! ### Expressions -/

/-- With a budget the parts of a run follow the parsers with the levels that are left, wherever these are fewer. -/
structure FollowsAt (extent : Extent) (budget : Nat) : Prop where
  expression : ∀ depth levels least, depth + levels = extent.maxDepth → levels < budget →
    Follows extent depth (Cursor.expression budget least) (expression extent levels least)
  operand : ∀ depth levels, depth + levels = extent.maxDepth → levels < budget →
    Follows extent depth (Cursor.operand budget) (operand extent levels)

variable {budget levels : Nat}

theorem FollowsAt.follows_arguments (h : FollowsAt extent budget) (hlevels : depth + levels = extent.maxDepth)
    (hbudget : levels ≤ budget) (opened : Nat) :
    Follows extent depth (Cursor.nested (Cursor.commaList (Cursor.expression budget 0)) opened)
      (enclosed (arguments extent levels) opened) := by
  refine follows_nested (arguments extent) hlevels rfl (fun lower hlower => ?_) opened
  exact follows_commaList (h.expression _ lower 0 (by omega) (by omega))

theorem FollowsAt.follows_items (h : FollowsAt extent budget) (hlevels : depth + levels = extent.maxDepth)
    (hbudget : levels ≤ budget) (opened : Nat) :
    Follows extent depth (Cursor.nested (Cursor.commaList (Cursor.operand budget)) opened)
      (enclosed (items extent levels) opened) := by
  refine follows_nested (items extent) hlevels rfl (fun lower hlower => ?_) opened
  exact follows_commaList (h.operand _ lower (by omega) (by omega))

theorem followsAt (extent : Extent) (budget : Nat) : FollowsAt extent budget := by
  induction budget with
  | zero => exact ⟨fun _ _ _ _ h => absurd h (Nat.not_lt_zero _), fun _ _ _ h => absurd h (Nat.not_lt_zero _)⟩
  | succ budget ih =>
    refine ⟨fun depth levels least hlevels hbudget => ?_, fun depth levels hlevels hbudget => ?_⟩
    · refine follows_deeper (fun levels => expression extent levels least) hlevels rfl ?_
      rintro lower rfl
      have hlower : depth + 1 + lower = extent.maxDepth := by omega
      have hgroup := follows_enclosed (ih.expression _ lower 0 hlower (by omega))
      have hprimary := follows_primary hgroup (ih.follows_arguments hlower (by omega))
      have hcompared := follows_comparison (ih.operand _ lower hlower (by omega)) (ih.follows_items hlower (by omega))
      refine hprimary.bind fun left => ⟨fun cursor hextent hdepth => ?_⟩
      exact (follows_climb (ih.expression _ lower · hlower (by omega)) hcompared _ left).outcome cursor hextent hdepth
    · refine follows_primary (follows_nested (nested extent) hlevels rfl fun lower hlower => ?_)
        (ih.follows_arguments hlevels (by omega))
      exact ih.operand _ lower (by omega) (by omega)

/-- The budget has no say in what an expression is read as, once there is more of it than levels are left. -/
theorem Cursor.expression_of_le {more : Nat} (least : Nat) (hdepth : cursor.depth ≤ cursor.maxDepth)
    (hbudget : cursor.maxDepth < cursor.depth + budget) (h : budget ≤ more) :
    Cursor.expression more least cursor = Cursor.expression budget least cursor := by
  have hlevels : cursor.depth + (cursor.maxDepth - cursor.depth) = cursor.maxDepth := by omega
  have hmore := (followsAt cursor.toExtent more).expression _ _ least hlevels (by omega)
  have hless := (followsAt cursor.toExtent budget).expression _ _ least hlevels (by omega)
  exact (hmore.outcome cursor rfl rfl).unique (hless.outcome cursor rfl rfl)

end Parser

/-! ### Whole filters -/

/-- The filter that a list of tokens spells has the tree of the parser without the cursor, and the names known before
    with those noted while the tokens were taken. -/
theorem ParsedFilter.ofTokens_eq (maxDepth : Nat) (known : List String) (tokens : List Token) :
    ofTokens maxDepth known tokens =
      match tokens.getLast? with
      | none => .error .emptyInput
      | some last => Parser.expression ⟨last.stop, maxDepth⟩ maxDepth 0 tokens >>= fun (ast, rest) =>
        match rest with
        | [] => .ok ⟨ast, tokens.foldl Token.noted (Text.distinct known)⟩
        | token :: _ => .error (Parser.unexpected token) := by
  unfold ofTokens
  cases tokens.getLast? with
  | none => rfl
  | some last =>
    dsimp only
    have houtcome : Parser.Outcome (.start ⟨last.stop, maxDepth⟩ known tokens)
        (Parser.Cursor.expression (maxDepth + 1) 0 (.start ⟨last.stop, maxDepth⟩ known tokens))
        (Parser.expression ⟨last.stop, maxDepth⟩ maxDepth 0 tokens) :=
      ((Parser.followsAt _ _).expression 0 maxDepth 0 (Nat.zero_add _) (Nat.lt_succ_self _)).outcome _ rfl rfl
    generalize Parser.Cursor.expression (maxDepth + 1) 0 (.start ⟨last.stop, maxDepth⟩ known tokens) = x
      at houtcome ⊢
    generalize Parser.expression ⟨last.stop, maxDepth⟩ maxDepth 0 tokens = y at houtcome ⊢
    cases houtcome with
    | failed => rfl
    | @done ast taken rest hahead =>
      cases rest with
      | nil =>
        obtain rfl : tokens = taken := by simpa [Parser.Cursor.start] using hahead
        rfl
      | cons token rest => rfl

end GridFilter
