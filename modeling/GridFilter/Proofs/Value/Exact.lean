import GridFilter.Decision
import GridFilter.Proofs.Number.Line

/-! What a comparison of two numbers says about the rational numbers they denote. Its readings are these numbers rounded to
    double precision, and only the equality of two whole numbers looks at them as they are. So a comparison is exact
    wherever rounding keeps the two apart, and two whole numbers that it makes one are neither equal nor ordered. -/

namespace GridFilter

open Binary64 (ofUnits lineUnits lineNearest)

/-! ### Relations -/

namespace Comparison

/-- The comparison holds between two elements of an ordered type. -/
def holds {α : Type} [LinearOrder α] : Comparison → α → α → Bool
  | .eq, a, b => a = b
  | .ne, a, b => a ≠ b
  | .gt, a, b => b < a
  | .ge, a, b => b ≤ a
  | .lt, a, b => a < b
  | .le, a, b => a ≤ b
  | .isIn, _, _ | .notIn, _, _ | .between, _, _ | .like, _, _ | .notLike, _, _ => false

/-- One of the two comparisons that ask for equality. -/
def isEquality : Comparison → Bool
  | .eq | .ne => true
  | _ => false

variable {α β : Type} [LinearOrder α] [LinearOrder β] {comparison : Comparison}

theorem holds_congr {a b : α} {c d : β} (h : c ≤ d ↔ a ≤ b) (h' : d ≤ c ↔ b ≤ a) :
    comparison.holds c d = comparison.holds a b := by
  cases comparison <;> simp only [holds, le_antisymm_iff, ← not_le, ne_eq, h, h']

theorem holds_map {f : α → β} (hf : StrictMono f) (a b : α) : comparison.holds (f a) (f b) = comparison.holds a b :=
  holds_congr hf.le_iff_le hf.le_iff_le

/-- A map that keeps the order and joins no two different elements of these changes no comparison of them. -/
theorem holds_of_apart {f : α → β} (hf : Monotone f) {a b : α} (h : f a = f b → a = b) :
    comparison.holds (f a) (f b) = comparison.holds a b := by
  have hback {a b : α} (h : f a = f b → a = b) (hle : f a ≤ f b) : a ≤ b := by
    refine le_of_not_gt fun hlt => hlt.ne' (h ?_)
    exact le_antisymm hle (hf hlt.le)
  exact holds_congr ⟨hback h, @hf _ _⟩ ⟨hback fun heq => (h heq.symm).symm, @hf _ _⟩

theorem orders?_of_line {x y : Binary64} {p q : Int} (hx : x.line = some p) (hy : y.line = some q)
    (hrelational : comparison.isRelational = true) (hordering : comparison.isEquality = false) :
    comparison.orders? x y = some (comparison.holds p q) := by
  cases comparison <;> cases hrelational <;> cases hordering <;>
    simp only [orders?, holds, Binary64.less, Binary64.atMost, Binary64.related, hx, hy]

end Comparison

namespace Value

/-! ### Rational numbers -/

/-- The value is a whole number. -/
def isWhole : Value → Bool
  | .int _ => true
  | _ => false

/-- The rational number that a value denotes, if it is a number that is finite. -/
def rational? : Value → Option ℚ
  | .int n => some n.toInt
  | .float x => x.rational?
  | _ => none

/-- The rational number that the reading of a value denotes. -/
def rounded? (value : Value) : Option ℚ := value.number?.bind Binary64.rational?

variable {value left right : Value} {comparison : Comparison} {a b : ℚ} {x y : Binary64} {p q : Int}

theorem ofWhole_finite (n : Int64) :
    (ofWhole n).isFinite = true ∧ (ofWhole n).line = some (lineNearest (n.toInt * 2 ^ 1074)) := by
  have hlower := n.le_toInt
  have hupper := n.toInt_lt
  exact Binary64.ofInt_finite (by omega)

/-- The reading of a number is the number itself, rounded to a place of the line. -/
theorem number?_of_rational? (h : value.rational? = some a) : ∃ count x, ofUnits count = a ∧ value.number? = some x ∧
    x.isFinite = true ∧ x.line = some (lineNearest count) := by
  cases value with
  | int n =>
    obtain rfl := Option.some.inj h
    exact ⟨_, _, Binary64.ofUnits_mul n.toInt, rfl, ofWhole_finite n⟩
  | float x =>
    obtain ⟨place, hfinite, hline, rfl⟩ := Binary64.exists_line_of_rational? h
    refine ⟨lineUnits place, x, rfl, if_pos hfinite, hfinite, ?_⟩
    rw [Binary64.lineNearest_lineUnits, hline]
  | null | bool _ | string _ | array _ | object _ => cases h

theorem rounded?_of_number? (hnumber : value.number? = some x) (hfinite : x.isFinite = true) (hline : x.line = some p) :
    value.rounded? = some (ofUnits (lineUnits p)) := by
  rw [rounded?, hnumber, Option.bind_some, Binary64.rational?_of_line hfinite hline]

/-! ### Equality -/

theorem same_of_whole (hwhole : (left.isWhole && right.isWhole) = true) (hleft : left.rational? = some a)
    (hright : right.rational? = some b) : left.same right = decide (a = b) := by
  cases left <;> cases right <;> cases hwhole
  next m n =>
    obtain rfl := Option.some.inj hleft
    obtain rfl := Option.some.inj hright
    rw [same, Bool.eq_iff_iff, beq_iff_eq, decide_eq_true_iff, Int.cast_inj, Int64.toInt_inj]

theorem int_or_float_of_rational? (h : value.rational? = some a) : (∃ n, value = .int n) ∨ ∃ x, value = .float x := by
  cases value with
  | int n => exact .inl ⟨n, rfl⟩
  | float x => exact .inr ⟨x, rfl⟩
  | null | bool _ | string _ | array _ | object _ => cases h

theorem number?_float (h : (Value.float x).number? = some y) : x = y := by
  simp only [number?, Option.ite_none_right_eq_some, Option.some.injEq] at h
  exact h.2

theorem same_of_number? (hwhole : (left.isWhole && right.isWhole) = false) (hleft : left.rational? = some a)
    (hright : right.rational? = some b) (hx : left.number? = some x) (hy : right.number? = some y) :
    left.same right = x.same y := by
  rcases int_or_float_of_rational? hleft with ⟨m, rfl⟩ | ⟨z, rfl⟩ <;>
    rcases int_or_float_of_rational? hright with ⟨n, rfl⟩ | ⟨w, rfl⟩
  · cases hwhole
  · obtain rfl := Option.some.inj hx
    obtain rfl := number?_float hy
    rfl
  · obtain rfl := number?_float hx
    obtain rfl := Option.some.inj hy
    rfl
  · obtain rfl := number?_float hx
    obtain rfl := number?_float hy
    rfl

theorem same_of_line (hleft : left.rational? = some a) (hright : right.rational? = some b)
    (hx : left.number? = some x) (hy : right.number? = some y) (hp : x.line = some p) (hq : y.line = some q) :
    left.same right = if left.isWhole && right.isWhole then decide (a = b) else decide (p = q) := by
  split
  · next hwhole => exact same_of_whole hwhole hleft hright
  · next hwhole =>
    rw [same_of_number? (Bool.eq_false_of_not_eq_true hwhole) hleft hright hx hy, Binary64.same, Binary64.related, hp, hq]
    rfl

/-! ### Decisions -/

/-- The two sides are whole numbers and asked for equality, which looks at them unrounded. -/
def comparesWhole (left : Value) (comparison : Comparison) (right : Value) : Bool :=
  comparison.isEquality && (left.isWhole && right.isWhole)

theorem reading?_eq_number : value.reading? = some (.number x) ↔ value.number? = some x := by
  cases value <;> simp [reading?, isNull, number?]

theorem decide?_of_number? (hx : left.number? = some x) (hy : right.number? = some y) :
    left.decide? comparison right = match comparison with
      | .eq => some (left.same right)
      | .ne => some (!left.same right)
      | other => other.orders? x y := by
  rw [decide?, reading?_eq_number.mpr hx, reading?_eq_number.mpr hy]
  cases comparison <;> rfl

theorem decide?_of_line (hrelational : comparison.isRelational = true) (hleft : left.rational? = some a)
    (hright : right.rational? = some b) (hx : left.number? = some x) (hy : right.number? = some y)
    (hp : x.line = some p) (hq : y.line = some q) : left.decide? comparison right =
      some (if left.comparesWhole comparison right then comparison.holds a b else comparison.holds p q) := by
  rw [decide?_of_number? hx hy]
  cases hequality : comparison.isEquality with
  | false =>
    have horders := Comparison.orders?_of_line hp hq hrelational hequality
    rw [comparesWhole, hequality, Bool.false_and, if_neg Bool.false_ne_true]
    cases comparison <;> first | exact horders | cases hequality
  | true =>
    rw [comparesWhole, hequality, Bool.true_and, same_of_line hleft hright hx hy hp hq]
    cases left.isWhole && right.isWhole <;> cases comparison <;> cases hequality <;> simp [Comparison.holds]

/-- A comparison of two numbers is always decided. It is the comparison of their rounded values, or of the values
    themselves where two whole numbers are asked for equality. All comparisons of the two are therefore
    exact if and only if rounding does not join them. -/
theorem decide?_rational (hleft : left.rational? = some a) (hright : right.rational? = some b) :
    ∃ c d, left.rounded? = some c ∧ right.rounded? = some d ∧
      (∀ comparison, comparison.isRelational = true → left.decide? comparison right =
        some (if left.comparesWhole comparison right then comparison.holds a b else comparison.holds c d)) ∧
      ((∀ comparison, comparison.isRelational = true → left.decide? comparison right = some (comparison.holds a b)) ↔
        (c = d → a = b)) := by
  obtain ⟨m, x, rfl, hx, hxfinite, hp⟩ := number?_of_rational? hleft
  obtain ⟨n, y, rfl, hy, hyfinite, hq⟩ := number?_of_rational? hright
  have hunits : StrictMono ofUnits := fun _ _ h => Binary64.ofUnits_lt h
  have hmono : StrictMono fun place => ofUnits (lineUnits place) := fun _ _ h => hunits (Binary64.lineUnits_lt h)
  have hnearest : Monotone lineNearest := fun _ _ h => Binary64.lineNearest_mono h
  have hdecide (comparison : Comparison) (hrelational : comparison.isRelational = true) :=
    decide?_of_line hrelational hleft hright hx hy hp hq
  refine ⟨_, _, rounded?_of_number? hx hxfinite hp, rounded?_of_number? hy hyfinite hq, ?_, ?_, ?_⟩
  · intro comparison hrelational
    rw [hdecide comparison hrelational, Comparison.holds_map hmono]
  · -- Both orderings hold between numbers that rounding joins, and exactly only between equal ones.
    intro hexact heq
    have hplace : lineNearest m = lineNearest n := hmono.injective heq
    have hle := (hdecide .le rfl).symm.trans (hexact .le rfl)
    have hge := (hdecide .ge rfl).symm.trans (hexact .ge rfl)
    rw [hplace] at hle hge
    refine le_antisymm (of_decide_eq_true ?_) (of_decide_eq_true ?_)
    · exact (Option.some.inj hle).symm.trans (decide_eq_true le_rfl)
    · exact (Option.some.inj hge).symm.trans (decide_eq_true le_rfl)
  · intro happart comparison hrelational
    rw [hdecide comparison hrelational, Comparison.holds_map hunits]
    have hplace (heq : lineNearest m = lineNearest n) : m = n :=
      hunits.injective (happart (congrArg (fun place => ofUnits (lineUnits place)) heq))
    have hround : comparison.holds (lineNearest m) (lineNearest n) = comparison.holds m n :=
      Comparison.holds_of_apart hnearest hplace
    rw [hround, ite_self]

/-- The first whole number that double precision does not hold. -/
def oddWhole : Value := .int 9007199254740993

/-- The double that it is rounded to. -/
def evenDouble : Value := .float (.ofInt 9007199254740992)

theorem rational?_evenDouble : evenDouble.rational? = some 9007199254740992 := by
  obtain ⟨hfinite, hline⟩ := @Binary64.ofInt_finite 9007199254740992 (by decide)
  have hexact : lineUnits (lineNearest (9007199254740992 * 2 ^ 1074)) = 9007199254740992 * 2 ^ 1074 := by decide +kernel
  rw [evenDouble, rational?, Binary64.rational?_of_line hfinite hline, hexact, Binary64.ofUnits_mul]
  rfl

theorem decide?_rational_odd : oddWhole.rational? = some 9007199254740993 ∧
    evenDouble.rational? = some 9007199254740992 ∧ ∃ c d, oddWhole.rounded? = some c ∧ evenDouble.rounded? = some d ∧
      (∀ comparison, comparison.isRelational = true → oddWhole.decide? comparison evenDouble =
        some (if oddWhole.comparesWhole comparison evenDouble then comparison.holds (9007199254740993 : ℚ) 9007199254740992
          else comparison.holds c d)) ∧
      ((∀ comparison, comparison.isRelational = true → oddWhole.decide? comparison evenDouble =
        some (comparison.holds (9007199254740993 : ℚ) 9007199254740992)) ↔
        (c = d → (9007199254740993 : ℚ) = 9007199254740992)) :=
  ⟨rfl, rational?_evenDouble, decide?_rational rfl rational?_evenDouble⟩

/-- Double precision holds no odd number between 2^53 and 2^54. One of them is neither equal to the even number below it,
    nor is it above or below that. -/
theorem decide?_joined : oddWhole.rational? = some 9007199254740993 ∧
    (Value.int 9007199254740992).rational? = some 9007199254740992 ∧
    Comparison.gt.holds (9007199254740993 : ℚ) 9007199254740992 = true ∧
    oddWhole.decide? .gt (.int 9007199254740992) = some false ∧
    oddWhole.decide? .lt (.int 9007199254740992) = some false ∧
    oddWhole.decide? .eq (.int 9007199254740992) = some false := by
  decide +kernel

end Value

end GridFilter
