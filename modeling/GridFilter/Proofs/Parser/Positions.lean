import GridFilter.Proofs.Parser.Prompt
import GridFilter.Proofs.Token.Sizes

/-! The positions in the reasons for which filters are refused. Each is that of a token, except where the tokens run out
    while a parenthesis or the `AND` of a range is due: then it is where the last token stops by its own text, which is
    in front of where the characters of that token stop if the token is shortened. -/

namespace GridFilter

namespace Parser
open Grammar

variable {extent : Extent} {levels least : Nat} {token : Token} {tokens rest : List Token} {e : ParseError}

/-! ### What a reason refers to -/

/-- The tokens end where something is due, and a reason says so with `stop` for its position: behind the sign of a list
    or the name of a function a parenthesis is due, and behind the lower end of a range its `AND`. -/
inductive RunsOut (stop : Nat) : List Token → ParseError → Prop where
  | list (front : List Token) {sign : Token} {operator : Comparison} : operator = .isIn ∨ operator = .notIn →
      sign.isOperator operator.symbol = true → RunsOut stop (front ++ [sign]) (.expectedOpenParen operator.symbol stop)
  | call (front : List Token) {name : Token} : name.kind = .function →
      RunsOut stop (front ++ [name]) (.expectedOpenParen Node.functionName stop)
  | range (front : List Token) {low : List Token} {sign : Token} {node : Node} :
      sign.isOperator Comparison.between.symbol = true → Comparand low node →
      RunsOut stop (front ++ sign :: low) (.missingBetweenAnd stop)

/-- What the position in a reason refers to: nothing where there is none, or else a token, or the end of the tokens. -/
inductive Refers (extent : Extent) (tokens : List Token) (e : ParseError) : Prop where
  | nothing : e.position? = none → Refers extent tokens e
  | token (token : Token) : token ∈ tokens → e.position? = some token.position → Refers extent tokens e
  | stop : RunsOut extent.stop tokens e → Refers extent tokens e

/-- Where a parser fails, its reason refers to the tokens that it was given. -/
def Located {α : Type} (extent : Extent) (parser : Parser α) : Prop :=
  ∀ tokens e, parser tokens = .error e → Refers extent tokens e

theorem RunsOut.position? {stop : Nat} (h : RunsOut stop tokens e) : e.position? = some stop := by
  cases h <;> rfl

theorem RunsOut.behind {stop : Nat} (h : RunsOut stop tokens e) (before : List Token) :
    RunsOut stop (before ++ tokens) e := by
  cases h with
  | list front hoperator hsign => exact List.append_assoc .. ▸ .list (before ++ front) hoperator hsign
  | call front hname => exact List.append_assoc .. ▸ .call (before ++ front) hname
  | range front hsign hlow => exact List.append_assoc .. ▸ .range (before ++ front) hsign hlow

theorem Refers.behind (h : Refers extent tokens e) (before : List Token) : Refers extent (before ++ tokens) e := by
  cases h with
  | nothing h => exact .nothing h
  | token token htoken h => exact .token token (List.mem_append_right _ htoken) h
  | stop h => exact .stop (h.behind before)

theorem refers_unexpected (htoken : token ∈ tokens) : Refers extent tokens (unexpected token) :=
  .token token htoken rfl

/-- A reason with the position of the next token refers to that token, or to the end where there is none. -/
theorem refers_due {reason : Nat → ParseError} (hreason : ∀ position, (reason position).position? = some position)
    {front : List Token} (hend : RunsOut extent.stop front (reason extent.stop)) :
    Refers extent (front ++ tokens) (reason (positionOf extent tokens)) := by
  cases tokens with
  | nil => exact .stop (by rwa [List.append_nil])
  | cons token rest => exact .token token (by simp) (hreason _)

/-! ### Failures -/

theorem bind_eq_error {α β : Type} {x : Except ParseError α} {f : α → Except ParseError β} :
    (x >>= f) = .error e ↔ x = .error e ∨ ∃ a, x = .ok a ∧ f a = .error e := by
  cases x with
  | error e' => simp [bind, Except.bind]
  | ok a => simp [bind, Except.bind]

/-- Of two parsers, one behind the other, the first one fails, or the second one behind what the first one takes. -/
theorem Sound.andThen_eq_error {α β : Type} {parser : Parser α} {next : α → Parser β}
    {Spelled : List Token → α → Prop} (hsound : Sound parser Spelled) (h : andThen parser next tokens = .error e) :
    parser tokens = .error e ∨ ∃ used a rest, tokens = used ++ rest ∧ Spelled used a ∧ next a rest = .error e := by
  rcases bind_eq_error.mp h with hfirst | ⟨⟨a, rest⟩, hfirst, hnext⟩
  · exact .inl hfirst
  · obtain ⟨used, hused, hspelled⟩ := hsound _ _ _ hfirst
    exact .inr ⟨used, a, rest, hused, hspelled, hnext⟩

theorem andThen_giving_eq_error {α β : Type} {parser : Parser α} {f : α → β}
    (h : andThen parser (fun a => giving (f a)) tokens = .error e) : parser tokens = .error e := by
  rcases bind_eq_error.mp h with hparser | ⟨_, -, hgiving⟩
  · exact hparser
  · cases hgiving

theorem opening_eq_error {after : String} (h : opening extent after tokens = .error e) :
    e = .expectedOpenParen after (positionOf extent tokens) := by
  unfold opening at h
  split at h
  · cases h
    rfl
  · split at h <;> cases h
    rfl

theorem closing_eq_error {opened : Nat} (h : closing opened tokens = .error e) : e = .missingParen opened := by
  unfold closing at h
  split at h
  · cases h
    rfl
  · split at h <;> cases h
    rfl

theorem betweenAnd_eq_error (h : betweenAnd extent tokens = .error e) :
    e = .missingBetweenAnd (positionOf extent tokens) := by
  unfold betweenAnd at h
  split at h
  · cases h
    rfl
  · split at h <;> cases h
    rfl

/-! ### Lists -/

section
variable {α : Type} {item : Parser α} {Item : List Token → α → Prop}

theorem located_moreItems (hsound : Sound item Item) (hitem : Located extent item) (bound : Nat) :
    Located extent (moreItems item bound) := by
  induction bound with
  | zero => exact nofun
  | succ bound ih =>
    intro tokens e h
    cases tokens with
    | nil => cases h
    | cons comma rest =>
      unfold moreItems at h
      split at h
      · have h : andThen item (fun first =>
          andThen (moreItems item bound) fun others => giving (first :: others)) rest = .error e := h
        rcases hsound.andThen_eq_error h with hfirst | ⟨used, first, behind, rfl, -, h⟩
        · exact (hitem _ _ hfirst).behind [comma]
        · exact (ih _ _ (andThen_giving_eq_error h)).behind (comma :: used)
      · cases h

theorem located_commaList (hsound : Sound item Item) (hitem : Located extent item) :
    Located extent (commaList item) := by
  intro tokens e h
  rw [commaList_eq] at h
  rcases hsound.andThen_eq_error h with hfirst | ⟨used, first, behind, rfl, -, h⟩
  · exact hitem _ _ hfirst
  · exact (located_moreItems hsound hitem _ _ _ (andThen_giving_eq_error h)).behind used

/-- A list in parentheses, behind tokens that make it due. -/
theorem refers_enclosed {Spelled : List Token → List α → Prop} {list : Parser (List α)} {after : String}
    {next : List α → Parser Node} {front : List Token} (hsound : Sound list Spelled) (hlist : Located extent list)
    (hend : RunsOut extent.stop front (.expectedOpenParen after extent.stop))
    (hnext : ∀ items rest e, next items rest = .error e → e.position? = none)
    (h : andThen (opening extent after) (fun opened => andThen list fun items => andThen (closing opened) fun _ =>
      next items) tokens = .error e) : Refers extent (front ++ tokens) e := by
  rcases sound_opening.andThen_eq_error h with hopened | ⟨_, opened, rest, rfl, ⟨openParen, rfl, -, rfl⟩, h⟩
  · obtain rfl := opening_eq_error hopened
    exact refers_due (fun _ => rfl) hend
  rcases hsound.andThen_eq_error h with hitems | ⟨inner, items, rest, rfl, -, h⟩
  · exact ((hlist _ _ hitems).behind [openParen]).behind front
  rcases sound_closing.andThen_eq_error h with hclosed | ⟨_, _, rest, -, -, h⟩
  · obtain rfl := closing_eq_error hclosed
    exact .token openParen (by simp) rfl
  · exact .nothing (hnext _ _ _ h)

end

/-! ### Terms and comparands -/

section
variable {arguments items : Parser (List Node)} {group operand : Parser Node}

theorem refers_call (hkind : token.kind = .function) (hsound : Sound arguments (Below Bounded.Arguments levels))
    (harguments : Located extent arguments) (h : call extent arguments token tokens = .error e) :
    Refers extent (token :: tokens) e := by
  by_cases hname : Text.sameLetters token.text Node.functionName = true
  · rw [call_eq hname] at h
    refine refers_enclosed hsound harguments (.call [] hkind) (fun nodes rest e hfew => ?_) h
    split at hfew <;> cases hfew
    rfl
  · rw [call, if_neg hname] at h
    cases h
    exact .token token (by simp) rfl

theorem located_primary {Group : List Token → Node → Prop} (hsound : Sound group Group)
    (hgroup : Located extent group) (hsound' : Sound arguments (Below Bounded.Arguments levels))
    (harguments : Located extent arguments) : Located extent (primary extent group arguments) := by
  intro tokens e h
  cases tokens with
  | nil =>
    cases h
    exact .nothing rfl
  | cons token rest =>
    by_cases hopened : token.isParen '(' = true
    · rw [primary_group hopened] at h
      rcases hsound.andThen_eq_error h with hinside | ⟨inner, node, rest, rfl, -, h⟩
      · exact (hgroup _ _ hinside).behind [token]
      · obtain rfl := closing_eq_error (andThen_giving_eq_error h)
        exact .token token (by simp) rfl
    · unfold primary at h
      dsimp only at h
      split at h
      · rw [if_neg hopened] at h
        cases h
        exact refers_unexpected (by simp)
      · next hkind => exact refers_call hkind hsound' harguments h
      · split at h <;> cases h
        exact .token token (by simp) rfl
      · rcases bind_eq_error.mp h with hleaf | ⟨node, -, hgiven⟩
        · obtain rfl := leaf_eq_error hleaf
          exact refers_unexpected (by simp)
        · cases hgiven

/-! ### Comparisons -/

theorem refers_comparison {left : Node} {operator : Comparison} {sign : Token}
    (hsign : sign.isOperator operator.symbol = true) (hsound : Sound operand (Bounded.Comparand levels))
    (hoperand : Located extent operand) (hsound' : Sound items (Below Bounded.Items levels))
    (hitems : Located extent items) (h : comparison extent operand items left operator sign tokens = .error e) :
    Refers extent (sign :: tokens) e := by
  by_cases hleft : left.isCondition = true
  · have hrefused : comparison extent operand items left operator sign tokens = .error (unexpected sign) := if_pos hleft
    obtain rfl := Except.error.inj (hrefused.symm.trans h)
    exact refers_unexpected (by simp)
  rw [Bool.not_eq_true] at hleft
  by_cases hlist : operator = .isIn ∨ operator = .notIn
  · rw [comparison_list hleft hlist] at h
    exact refers_enclosed hsound' hitems (.list [] hlist hsign) (fun _ _ _ h => by cases h) h
  obtain ⟨hin, hnot⟩ := not_or.mp hlist
  by_cases hbetween : operator = .between
  · subst hbetween
    rw [comparison_range hleft] at h
    -- The lower end has been read whole when its `AND` is looked for, so that it ends the tokens if there is none.
    rcases hsound.andThen_eq_error h with hlow | ⟨first, low, rest, rfl, hlow, h⟩
    · exact (hoperand _ _ hlow).behind [sign]
    rcases sound_betweenAnd.andThen_eq_error h with hand | ⟨_, _, rest, rfl, ⟨middle, rfl, -⟩, hhigh⟩
    · obtain rfl := betweenAnd_eq_error hand
      exact refers_due (fun _ => rfl) (.range [] hsign hlow.plain)
    · exact (((hoperand _ _ (andThen_giving_eq_error hhigh)).behind [middle]).behind first).behind [sign]
  · rw [comparison_single hleft hin hnot hbetween] at h
    rcases hsound.andThen_eq_error h with hright | ⟨used, right, rest, rfl, -, h⟩
    · exact (hoperand _ _ hright).behind [sign]
    rcases bind_eq_error.mp h with hordered | ⟨node, -, hgiven⟩
    · obtain ⟨field, other, rfl⟩ := ordered_eq_error hordered
      exact .nothing rfl
    · cases hgiven

end

/-! ### Chains of operators -/

theorem located_climb {right : Nat → Parser Node} {compared : Node → Comparison → Token → Parser Node}
    (hsoundRight : ∀ least, Sound (right least) (Phrase levels least)) (hright : ∀ least, Located extent (right least))
    (hsoundCompared : ∀ left operator sign, Sound (compared left operator sign) (Compared levels left operator))
    (hcompared : ∀ left (operator : Comparison) (sign : Token) tokens e, sign.isOperator operator.symbol = true →
      compared left operator sign tokens = .error e → Refers extent (sign :: tokens) e)
    (bound : Nat) (left : Node) : Located extent (climb right compared least bound left) := by
  induction bound generalizing left with
  | zero => exact nofun
  | succ bound ih =>
    intro tokens e h
    cases tokens with
    | nil => cases h
    | cons sign rest =>
      unfold climb at h
      dsimp only at h
      split at h
      · cases h
      · next found hfound =>
        split at h
        · cases h
        · next hleast =>
          split at h
          · next connective =>
            have h : andThen (right (connective.precedence + 1))
              (fun node => climb right compared least bound (.logical connective left node)) rest = .error e := h
            rcases (hsoundRight _).andThen_eq_error h with hnode | ⟨second, node, behind, rfl, -, h⟩
            · exact (hright _ _ _ hnode).behind [sign]
            · exact (ih _ _ _ h).behind (sign :: second)
          · next operator =>
            have h : andThen (compared left operator sign) (climb right compared least bound) rest = .error e := h
            rcases (hsoundCompared _ _ _).andThen_eq_error h with hnode | ⟨others, node, behind, rfl, -, h⟩
            · exact hcompared _ _ _ _ _ (ofToken?_eq_comparison.mp hfound) hnode
            · exact (ih _ _ _ h).behind (sign :: others)

/-! ### All levels -/

/-- The reasons of the four parsers of a level refer to their tokens. -/
structure LocatedAt (extent : Extent) (levels : Nat) : Prop where
  expression : ∀ least, Located extent (expression extent levels least)
  nested : Located extent (nested extent levels)
  arguments : Located extent (arguments extent levels)
  items : Located extent (items extent levels)

theorem LocatedAt.term (h : LocatedAt extent levels) :
    Located extent (primary extent (Parser.expression extent levels 0) (Parser.arguments extent levels)) :=
  located_primary (soundAt extent levels).whole (h.expression 0) (soundAt extent levels).arguments h.arguments

theorem LocatedAt.operand (h : LocatedAt extent levels) : Located extent (operand extent levels) :=
  located_primary (soundAt extent levels).nested h.nested (soundAt extent levels).arguments h.arguments

theorem locatedAt (extent : Extent) (levels : Nat) : LocatedAt extent levels := by
  induction levels with
  | zero =>
    have deep {α : Type} : Located extent (fun _ => .error (.tooDeep extent.maxDepth) : Parser α) := by
      intro tokens e h
      cases h
      exact .nothing rfl
    exact ⟨fun _ => deep, deep, deep, deep⟩
  | succ levels ih =>
    have hsound : SoundAt extent levels := soundAt extent levels
    refine ⟨fun least tokens e h => ?_, ih.operand, located_commaList hsound.whole (ih.expression 0),
      located_commaList hsound.operand ih.operand⟩
    rw [expression_eq] at h
    rcases hsound.term.andThen_eq_error h with hleft | ⟨used, left, behind, rfl, -, h⟩
    · exact ih.term _ _ hleft
    have hbehind : Refers extent behind e :=
      located_climb hsound.phrase ih.expression (sound_comparison hsound.operand hsound.items)
        (fun _ _ _ _ _ hsign h => refers_comparison hsign hsound.operand ih.operand hsound.items ih.items h) _ left _ _ h
    exact hbehind.behind used

end Parser

/-! ### Whole filters -/

namespace ParsedFilter
open GridFilter.Parser

variable {maxDepth : Nat} {known : List String} {tokens : List Token} {e : ParseError}

theorem refers_of_ofTokens {last : Token} (hlast : tokens.getLast? = some last)
    (h : ofTokens maxDepth known tokens = .error e) : Refers ⟨last.stop, maxDepth⟩ tokens e := by
  rw [ofTokens_eq, hlast] at h
  rcases bind_eq_error.mp h with hexpression | ⟨⟨ast, rest⟩, hexpression, hrest⟩
  · exact (locatedAt _ _).expression _ _ _ hexpression
  · obtain ⟨used, rfl, -⟩ := (soundAt _ _).whole _ _ _ hexpression
    -- Tokens behind the expression are refused.
    cases rest with
    | nil => cases hrest
    | cons token tail =>
      cases hrest
      exact refers_unexpected (by simp)

/-- The position in the reason for which the tokens of a text are refused is that of a token, or else these run out
    where something is due. Then it is the byte offset just past the characters of the last token, unless that is a
    string, a placeholder, or an operator written with more characters than the token has: then it lies in front of
    that. -/
theorem ofTokens_position {text : String} {position : Nat} (htext : Token.ofText text = .ok tokens)
    (hrefused : ofTokens maxDepth known tokens = .error e) (hposition : e.position? = some position) :
    (∃ token ∈ tokens, token.position = position) ∨
      RunsOut position tokens e ∧ ∃ (front : List Char) (tile : Token.Tile),
        text.toList = front ++ (tile.span ++ tile.gap) ∧ tokens.getLast? = some tile.token ∧ tile.Fits front [] ∧
          position ≤ Text.byteSize (front ++ tile.span) ∧
          (position = Text.byteSize (front ++ tile.span) ↔ ¬tile.lexeme.Shortened) := by
  cases hlast : tokens.getLast? with
  | none =>
    rw [ofTokens_eq, hlast] at hrefused
    cases hrefused
    cases hposition
  | some last =>
    cases refers_of_ofTokens hlast hrefused with
    | nothing hnone =>
      rw [hnone] at hposition
      cases hposition
    | token token htoken hsame =>
      rw [hsame] at hposition
      exact .inl ⟨token, htoken, Option.some.inj hposition⟩
    | stop hend =>
      -- The parser takes for the end of the text where the last token stops by its own text.
      have hstop := hend.position?.symm.trans hposition
      obtain rfl : last.stop = position := Option.some.inj hstop
      obtain ⟨front, tile, hchars, rfl, hfits⟩ := Token.exists_last_of_ofText htext hlast
      exact .inr ⟨hend, front, tile, hchars, rfl, hfits, hfits.stop⟩

/-- A text with a letter of two bytes, which ends where a list is due. -/
def openList : String := "'É' = Code AND Name not in "

/-- Its tokens. -/
def openListTokens : List Token := [⟨.string, "É", 0⟩, ⟨.operator, "=", 5⟩, ⟨.identifier, "Code", 7⟩,
  ⟨.operator, "AND", 12⟩, ⟨.identifier, "Name", 16⟩, ⟨.operator, "NOT IN", 21⟩]

theorem ofTokens_position_openList : Token.ofText openList = .ok openListTokens ∧
    ofTokens 256 [] openListTokens = .error (.expectedOpenParen "NOT IN" 27) ∧
    RunsOut 27 openListTokens (.expectedOpenParen "NOT IN" 27) ∧ ∃ (front : List Char) (tile : Token.Tile),
      openList.toList = front ++ (tile.span ++ tile.gap) ∧ openListTokens.getLast? = some tile.token ∧
        tile.Fits front [] ∧ 27 ≤ Text.byteSize (front ++ tile.span) ∧
        (27 = Text.byteSize (front ++ tile.span) ↔ ¬tile.lexeme.Shortened) := by
  have htext : Token.ofText openList = .ok openListTokens := by rfl
  have hrefused : ofTokens 256 [] openListTokens = .error (.expectedOpenParen "NOT IN" 27) := by rfl
  have hnone : ¬∃ token ∈ openListTokens, token.position = 27 := by decide
  exact ⟨htext, hrefused, (ofTokens_position htext hrefused rfl).resolve_left hnone⟩

/-- The tokens of `A BETWEEN 'x'`. -/
def quotedLowTokens : List Token := [⟨.identifier, "A", 0⟩, ⟨.operator, "BETWEEN", 2⟩, ⟨.string, "x", 10⟩]

/-- Behind a string the position is too low: it is inside the string, which starts at 10 and stops at 13. -/
theorem ofTokens_position_quotedLow : Token.ofText "A BETWEEN 'x'" = .ok quotedLowTokens ∧
    ofTokens 256 [] quotedLowTokens = .error (.missingBetweenAnd 11) ∧
    (∀ token ∈ quotedLowTokens, token.position ≠ 11) ∧
    Token.ofText "'x'" = .ok [⟨.string, "x", 0⟩] ∧ quotedLowTokens.getLast? = some ⟨.string, "x", 10⟩ ∧
    Text.byteSize "A BETWEEN ".toList = 10 ∧ Text.byteSize ("A BETWEEN ".toList ++ "'x'".toList) = 13 := by
  refine ⟨by rfl, by rfl, by decide, by rfl, by rfl, by decide, by decide⟩

end ParsedFilter

end GridFilter
