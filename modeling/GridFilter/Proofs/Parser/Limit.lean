import GridFilter.Proofs.Parser.Cursor

/-! Raising the depth limit. The limit has no say in what the parser answers, except that it gives up where the limit is
    reached: with a higher one it answers the same, whether that is a tree or a reason to refuse the tokens. -/

namespace GridFilter

namespace Parser

variable {stop limit more levels higher least : Nat}

/-! ### Answers that are kept -/

/-- A result is kept by another one, unless it is that the limit was reached. -/
def Kept {α : Type} (limit : Nat) (result other : Except ParseError α) : Prop :=
  result = .error (.tooDeep limit) ∨ result = other

theorem kept_rfl {α : Type} (result : Except ParseError α) : Kept limit result result := .inr rfl

theorem Kept.bind {α β : Type} {x y : Except ParseError α} {f g : α → Except ParseError β} (hx : Kept limit x y)
    (hf : ∀ a, Kept limit (f a) (g a)) : Kept limit (x >>= f) (y >>= g) := by
  rcases hx with rfl | rfl
  · exact .inl rfl
  · cases x with
    | error e => exact .inr rfl
    | ok a => exact hf a

/-- Whatever a parser answers another one answers too, unless the limit was reached. -/
def Keeps {α : Type} (limit : Nat) (parser other : Parser α) : Prop := ∀ tokens, Kept limit (parser tokens) (other tokens)

/-! ### Lists -/

section
variable {α : Type} {item other : Parser α}

theorem keeps_moreItems (hitem : Keeps limit item other) (bound : Nat) :
    Keeps limit (moreItems item bound) (moreItems other bound) := by
  induction bound with
  | zero => exact fun _ => kept_rfl _
  | succ bound ih =>
    intro tokens
    cases tokens with
    | nil => exact kept_rfl _
    | cons token rest =>
      unfold moreItems
      split
      · exact (hitem rest).bind fun first => (ih first.2).bind fun _ => kept_rfl _
      · exact kept_rfl _

theorem keeps_commaList (hitem : Keeps limit item other) : Keeps limit (commaList item) (commaList other) :=
  fun tokens => (hitem tokens).bind fun (_, behind) => (keeps_moreItems hitem _ behind).bind fun _ => kept_rfl _

end

/-! ### Terms, comparisons and chains -/

section
variable {arguments arguments' items items' : Parser (List Node)} {group group' operand operand' : Parser Node}

theorem keeps_call (harguments : Keeps limit arguments arguments') (token : Token) :
    Keeps limit (call ⟨stop, limit⟩ arguments token) (call ⟨stop, more⟩ arguments' token) := by
  intro tokens
  unfold call
  split
  · exact (kept_rfl _).bind fun (_, behind) => (harguments behind).bind fun _ => kept_rfl _
  · exact kept_rfl _

theorem keeps_primary (hgroup : Keeps limit group group') (harguments : Keeps limit arguments arguments') :
    Keeps limit (primary ⟨stop, limit⟩ group arguments) (primary ⟨stop, more⟩ group' arguments') := by
  intro tokens
  cases tokens with
  | nil => exact kept_rfl _
  | cons token rest =>
    unfold primary
    dsimp only
    split
    · split
      · exact (hgroup rest).bind fun _ => kept_rfl _
      · exact kept_rfl _
    · exact keeps_call harguments token rest
    · exact kept_rfl _
    · exact kept_rfl _

theorem keeps_comparison (hoperand : Keeps limit operand operand') (hitems : Keeps limit items items') (left : Node)
    (operator : Comparison) (sign : Token) :
    Keeps limit (comparison ⟨stop, limit⟩ operand items left operator sign)
      (comparison ⟨stop, more⟩ operand' items' left operator sign) := by
  intro tokens
  unfold comparison
  split
  · exact kept_rfl _
  · cases operator with
    | isIn | notIn => exact (kept_rfl _).bind fun (_, behind) => (hitems behind).bind fun _ => kept_rfl _
    | between =>
      exact (hoperand tokens).bind fun _ => (kept_rfl _).bind fun (_, behind) => (hoperand behind).bind fun _ => kept_rfl _
    | _ => exact (hoperand tokens).bind fun _ => kept_rfl _

theorem keeps_climb {right right' : Nat → Parser Node} {compared compared' : Node → Comparison → Token → Parser Node}
    (hright : ∀ least, Keeps limit (right least) (right' least))
    (hcompared : ∀ left operator sign, Keeps limit (compared left operator sign) (compared' left operator sign))
    (bound : Nat) (left : Node) :
    Keeps limit (climb right compared least bound left) (climb right' compared' least bound left) := by
  induction bound generalizing left with
  | zero => exact fun _ => kept_rfl _
  | succ bound ih =>
    intro tokens
    cases tokens with
    | nil => exact kept_rfl _
    | cons sign rest =>
      unfold climb
      dsimp only
      split
      · exact kept_rfl _
      · split
        · exact kept_rfl _
        · split
          · exact (hright _ rest).bind fun operand => ih _ operand.2
          · exact (hcompared _ _ _ rest).bind fun compared => ih _ compared.2

end

/-! ### All levels -/

/-- The four parsers of a level, with a limit and a higher one. -/
structure KeptAt (stop limit more levels higher : Nat) : Prop where
  expression : ∀ least, Keeps limit (expression ⟨stop, limit⟩ levels least) (expression ⟨stop, more⟩ higher least)
  nested : Keeps limit (nested ⟨stop, limit⟩ levels) (nested ⟨stop, more⟩ higher)
  arguments : Keeps limit (arguments ⟨stop, limit⟩ levels) (arguments ⟨stop, more⟩ higher)
  items : Keeps limit (items ⟨stop, limit⟩ levels) (items ⟨stop, more⟩ higher)

theorem keptAt (stop limit more : Nat) (h : levels ≤ higher) : KeptAt stop limit more levels higher := by
  induction levels generalizing higher with
  | zero => exact ⟨fun _ _ => .inl rfl, fun _ => .inl rfl, fun _ => .inl rfl, fun _ => .inl rfl⟩
  | succ levels ih =>
    obtain ⟨higher, rfl⟩ := Nat.exists_eq_succ_of_ne_zero (by omega : higher ≠ 0)
    have hlower : KeptAt stop limit more levels higher := ih (by omega)
    have hoperand : Keeps limit (operand ⟨stop, limit⟩ levels) (operand ⟨stop, more⟩ higher) :=
      keeps_primary hlower.nested hlower.arguments
    refine ⟨fun least tokens => ?_, hoperand, keeps_commaList (hlower.expression 0), keeps_commaList hoperand⟩
    refine (keeps_primary (hlower.expression 0) hlower.arguments tokens).bind fun (left, behind) => ?_
    exact keeps_climb hlower.expression (fun _ _ _ => keeps_comparison hoperand hlower.items _ _ _) _ left behind

end Parser

namespace ParsedFilter
open GridFilter.Parser

/-- With a limit on the depth the parser either gives up at it, or answers as it does with any higher one. -/
theorem ofTokens_of_le {limit more : Nat} (h : limit ≤ more) (known : List String) (tokens : List Token) :
    ofTokens limit known tokens = .error (.tooDeep limit) ∨ ofTokens limit known tokens = ofTokens more known tokens := by
  rw [ofTokens_eq, ofTokens_eq more]
  split
  · exact .inr rfl
  · next last _ => exact ((keptAt last.stop limit more h).expression 0 tokens).bind fun _ => kept_rfl _

/-- The tokens of `a IN ((b)) c`. -/
def trailing : List Token := [⟨.identifier, "a", 0⟩, ⟨.operator, "IN", 2⟩, ⟨.paren, "(", 5⟩, ⟨.paren, "(", 6⟩,
  ⟨.identifier, "b", 7⟩, ⟨.paren, ")", 8⟩, ⟨.paren, ")", 9⟩, ⟨.identifier, "c", 11⟩]

theorem ofTokens_of_le_trailing : 3 ≤ 7 ∧ ofTokens 2 [] trailing = .error (.tooDeep 2) ∧
    ofTokens 7 [] trailing = .error (.unexpectedToken "c" 11) := by
  have hthree : ofTokens 3 [] trailing = .error (.unexpectedToken "c" 11) := by rfl
  refine ⟨by decide, by rfl, ?_⟩
  rcases ofTokens_of_le (by decide : 3 ≤ 7) [] trailing with hdeep | hsame
  · rw [hthree] at hdeep
    cases hdeep
  · rw [← hsame, hthree]

end ParsedFilter

end GridFilter
