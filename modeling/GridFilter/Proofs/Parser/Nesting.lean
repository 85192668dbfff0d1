import GridFilter.Proofs.Parser.Complete
import Mathlib.Algebra.Order.Ring.Int
import Mathlib.Order.Bounds.Basic

/-! The depth limit against the parentheses of a filter. Where at most `p` of them are open at once, `4 * p + 3` levels
    are enough, and no filter is read with `p` levels or fewer. -/

namespace GridFilter

namespace Token

variable {token : Token} {tokens rest front first second : List Token} {height : Nat}

/-! ### Open parentheses -/

/-- How many more parentheses a list of tokens opens than it closes. -/
def excess (tokens : List Token) : Int :=
  tokens.countP (fun token => token.isParen '(') - tokens.countP (fun token => token.isParen ')')

theorem excess_cons : excess (token :: rest) =
    if token.isParen '(' then excess rest + 1 else if token.isParen ')' then excess rest - 1 else excess rest := by
  simp only [excess, List.countP_cons]
  split
  · next hopen => simp [isParen_open_close hopen]; omega
  · split
    · simp; omega
    · simp

theorem excess_le_peak (h : front <+: tokens) : excess front ≤ peak tokens := by
  induction tokens generalizing front with
  | nil => simp [List.prefix_nil.mp h, excess]
  | cons token rest ih =>
    cases front with
    | nil => simp [excess]
    | cons head tail =>
      obtain ⟨rfl, htail⟩ := List.cons_prefix_cons.mp h
      have hrest := ih htail
      rw [excess_cons, peak]
      split
      · omega
      · split <;> omega

theorem exists_excess_eq_peak (tokens : List Token) : ∃ front, front <+: tokens ∧ excess front = peak tokens := by
  induction tokens with
  | nil => exact ⟨[], List.prefix_rfl, rfl⟩
  | cons token rest ih =>
    by_cases hzero : peak (token :: rest) = 0
    · -- Nothing stays open, or a parenthesis closes one too many: the empty front is the highest.
      exact ⟨[], List.nil_prefix, by rw [hzero]; rfl⟩
    · obtain ⟨front, hfront, hpeak⟩ := ih
      refine ⟨token :: front, List.cons_prefix_cons.mpr ⟨rfl, hfront⟩, ?_⟩
      rw [excess_cons]
      rw [peak] at hzero ⊢
      split
      · omega
      · next hopen =>
        rw [if_neg hopen] at hzero
        split
        · next hclosed => rw [if_pos hclosed] at hzero; omega
        · exact hpeak

/-- The peak is the greatest excess of the fronts of a list. -/
theorem isGreatest_peak (tokens : List Token) :
    IsGreatest {n : Int | ∃ front, front <+: tokens ∧ excess front = n} (peak tokens) := by
  refine ⟨exists_excess_eq_peak tokens, ?_⟩
  rintro n ⟨front, hfront, rfl⟩
  exact excess_le_peak hfront

/-- In front of others a text opens no more than so many parentheses, and closes them again. -/
def Within (height : Nat) (used : List Token) : Prop := ∀ rest, peak (used ++ rest) ≤ max height (peak rest)

theorem within_nil : Within height [] := fun _ => Nat.le_max_right _ _

theorem Within.mono {more : Nat} (h : Within height tokens) (hmore : height ≤ more) : Within more tokens :=
  fun rest => Nat.le_trans (h rest) (by omega)

theorem Within.append (h : Within height first) (h' : Within height second) : Within height (first ++ second) := by
  intro rest
  have hfirst := h (second ++ rest)
  have hsecond := h' rest
  rw [List.append_assoc]
  omega

theorem Within.cons (h : Within height tokens) (hkind : token.kind ≠ .paren) : Within height (token :: tokens) := by
  intro rest
  rw [List.cons_append, peak_other hkind]
  exact h rest

theorem within_joined (hfirst : Within height first) (hkind : token.kind ≠ .paren) (hsecond : Within height second) :
    Within height (first ++ token :: second) :=
  hfirst.append (hsecond.cons hkind)

theorem Within.enclosed {opened closed : Token} (h : Within height tokens) (hopened : opened.isParen '(' = true)
    (hclosed : closed.isParen ')' = true) : Within (height + 1) (opened :: (tokens ++ [closed])) := by
  intro rest
  have hinner := h (closed :: rest)
  rw [peak_closing hclosed] at hinner
  rw [List.cons_append, List.append_assoc, List.singleton_append, peak_opening hopened]
  omega

theorem Within.peak_le (h : Within height tokens) : peak tokens ≤ height := by
  have hnil := h []
  rwa [List.append_nil, peak, Nat.max_zero] at hnil

end Token

/-! ### The parentheses that levels allow -/

namespace Grammar.Bounded
open Token

-- An expression spends a level before its first parenthesis, a term does not.
mutual

theorem Expression.within {levels : Nat} {used : List Token} {node : Node} :
    Expression levels used node → Within (levels - 1) used
  | .conjunction h => h.within
  | .or hfirst hsign hsecond =>
    within_joined hfirst.within (isOperator_ne_paren hsign) (hsecond.within.mono (by omega))

theorem Conjunction.within {levels : Nat} {used : List Token} {node : Node} :
    Conjunction levels used node → Within (levels - 1) used
  | .condition h => h.within
  | .and hfirst hsign hsecond =>
    within_joined hfirst.within (isOperator_ne_paren hsign) (hsecond.within.mono (by omega))

theorem Condition.within {levels : Nat} {used : List Token} {node : Node} :
    Condition levels used node → Within (levels - 1) used
  | .term h => h.within
  | .compared hleft _ hsign hright _ => within_joined hleft.within (isOperator_ne_paren hsign) hright.within

theorem Term.within {levels : Nat} {used : List Token} {node : Node} : Term levels used node → Within levels used
  | .value h => within_nil.cons h.kind_ne_paren
  | .call h => h.within
  | .group hopened h hclosed => (h.within.enclosed hopened hclosed).mono (by have := h.pos; omega)

theorem Comparand.within {levels : Nat} {used : List Token} {node : Node} :
    Comparand levels used node → Within levels used
  | .value h => within_nil.cons h.kind_ne_paren
  | .call h => h.within
  | .nested hopened h hclosed => h.within.enclosed hopened hclosed

theorem Call.within {levels : Nat} {used : List Token} {node : Node} : Call levels used node → Within levels used
  | .isNull hkind _ hopened harguments _ hclosed =>
    ((harguments.within.enclosed hopened hclosed).mono (by omega)).cons (by simp [hkind])

theorem RightSide.within {levels : Nat} {operator : Comparison} {used : List Token} {right : Operand} :
    RightSide levels operator used right → Within levels used
  | .list _ hopened hitems hclosed => hitems.within.enclosed hopened hclosed
  | .range hlow hsign hhigh => within_joined hlow.within (isOperator_ne_paren hsign) hhigh.within
  | .single _ _ _ h => h.within

theorem Arguments.within {levels : Nat} {used : List Token} {nodes : List Node} :
    Arguments levels used nodes → Within (levels - 1) used
  | .one h => h.within
  | .more hfirst hcomma hothers => within_joined hfirst.within (by simp [hcomma]) hothers.within

theorem Items.within {levels : Nat} {used : List Token} {nodes : List Node} :
    Items levels used nodes → Within levels used
  | .one h => h.within
  | .more hfirst hcomma hothers => within_joined hfirst.within (by simp [hcomma]) hothers.within

end

end Grammar.Bounded

/-! ### Whole filters -/

namespace ParsedFilter
open Token

theorem peak_lt_of_ofTokens {maxDepth : Nat} {known : List String} {tokens : List Token} {parsed : ParsedFilter}
    (h : ofTokens maxDepth known tokens = .ok parsed) : peak tokens < maxDepth := by
  have hbounded := bounded_of_ofTokens h
  have hpeak := hbounded.within.peak_le
  have hpos := hbounded.pos
  omega

/-- Where `p` is the greatest number of parentheses that a front of the tokens leaves open, `4 * p + 3` levels are never
    too few, however long the chains and lists are, and a filter that is read has more than `p` levels. -/
theorem ofTokens_nesting {tokens : List Token} {p : Nat}
    (hp : IsGreatest {n : Int | ∃ front, front <+: tokens ∧ excess front = n} p) (maxDepth : Nat)
    (known : List String) :
    (4 * p + 3 ≤ maxDepth → ∀ limit, ofTokens maxDepth known tokens ≠ .error (.tooDeep limit)) ∧
      ∀ parsed, ofTokens maxDepth known tokens = .ok parsed → p < maxDepth := by
  obtain rfl : p = peak tokens := Int.ofNat_inj.mp (hp.unique (isGreatest_peak tokens))
  exact ⟨fun hdepth limit hlimit => not_deep_ofTokens hdepth ⟨limit, hlimit⟩, fun _ h => peak_lt_of_ofTokens h⟩

theorem ofTokens_nesting_nestedRange :
    IsGreatest {n : Int | ∃ front, front <+: nestedRange ∧ excess front = n} 2 ∧
      (∀ limit, ofTokens 11 [] nestedRange ≠ .error (.tooDeep limit)) ∧
      ∀ parsed, ofTokens 2 [] nestedRange ≠ .ok parsed := by
  have hp : IsGreatest {n : Int | ∃ front, front <+: nestedRange ∧ excess front = n} (2 : Nat) :=
    isGreatest_peak nestedRange
  refine ⟨hp, (ofTokens_nesting hp 11 []).1 (by decide), fun parsed hparsed => ?_⟩
  exact absurd ((ofTokens_nesting hp 2 []).2 parsed hparsed) (by decide)

end ParsedFilter

end GridFilter
