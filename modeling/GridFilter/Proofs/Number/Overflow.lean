import GridFilter.Proofs.Number.Literals
import GridFilter.Proofs.Number.Nearest
import Mathlib.Algebra.Order.Field.Rat
import Mathlib.Tactic.Positivity
import Mathlib.Tactic.Ring

/-! Where double precision ends. A ratio is rounded to a finite number exactly below the midpoint of the last one and 2^1024,
    and a number in digits reads as infinity from there on. -/

namespace GridFilter

/-! ### Rounding -/

namespace Binary64

variable {num den digits places : Nat} {negative : Bool}

/-- The midpoint of the last finite magnitude and the one that would follow: 2^1024 - 2^970. -/
def overflow : Nat := (2 ^ 54 - 1) * 2 ^ 970

theorem cast_overflow : (overflow : ℚ) = 2 ^ 1024 - 2 ^ 970 := by
  have hsplit (k : Nat) : ((2 ^ 54 - 1 : Nat) : ℚ) * 2 ^ k = 2 ^ (54 + k) - 2 ^ k := by
    rw [Nat.cast_sub (by decide), pow_add]
    push_cast
    ring
  rw [overflow, Nat.cast_mul, Nat.cast_pow, Nat.cast_ofNat, hsplit 970]

theorem isFinite_ofPlace {place : Nat} : (ofPlace negative place).isFinite = true ↔ place < count := by
  unfold ofPlace
  split
  · next h => exact ⟨fun _ => h, fun _ => rfl⟩
  · next h => exact ⟨nofun, fun hlt => absurd hlt h⟩

theorem units_last (k : Nat) : units (k * 2 ^ 52 + (2 ^ 53 - 1)) + units (k * 2 ^ 52 + 2 ^ 53) = (2 ^ 54 - 1) * 2 ^ k := by
  have hsum : 2 ^ 53 - 1 + 2 ^ 53 = 2 ^ 54 - 1 := by decide
  rw [units_shifted (by decide) (.inr (by decide)), units_shifted (by decide) (.inr (by decide)), ← Nat.add_mul, hsum]

/-- The sum of the last finite magnitude and the next one, in units. -/
theorem units_count : units (count - 1) + units (count - 1 + 1) = 2 * overflow * 2 ^ 1074 := by
  have hdouble (m k more : Nat) : m * 2 ^ (k + 1 + more) = 2 * (m * 2 ^ k) * 2 ^ more := by
    rw [Nat.pow_add, Nat.pow_succ]
    ac_rfl
  have hlast : count - 1 = (970 + 1 + 1074) * 2 ^ 52 + (2 ^ 53 - 1) := by decide
  have hnext : count - 1 + 1 = (970 + 1 + 1074) * 2 ^ 52 + 2 ^ 53 := by decide
  rw [hnext, hlast, units_last, hdouble, overflow]

theorem exceeds_last : Exceeds (count - 1) (num * 2 ^ 1074) den ↔ overflow * den ≤ num := by
  have hodd : (count - 1) % 2 = 1 := by decide
  obtain ⟨unit, hunit, hpos⟩ : ∃ unit, unit = 2 ^ 1074 ∧ 0 < unit := ⟨_, rfl, Nat.two_pow_pos _⟩
  rw [Exceeds, units_count, hodd, ← hunit]
  have hleft (limit : Nat) : 2 * limit * unit * den = 2 * (limit * den * unit) := by ac_rfl
  have hle : overflow * den * unit ≤ num * unit ↔ overflow * den ≤ num := Nat.mul_le_mul_right_iff hpos
  rw [hleft]
  omega

theorem isFinite_ofRatio (hden : 0 < den) : (ofRatio negative num den).isFinite = true ↔ num < overflow * den := by
  have hlast : count - 1 + 1 = count := rfl
  rw [ofRatio_eq, isFinite_ofPlace, ← Nat.not_le, ← Nat.not_le, ← hlast, Nat.succ_le_iff, lt_nearest_iff hden, exceeds_last]

/-! ### Decimals -/

theorem overflow_bounds : 2 ^ 63 < overflow ∧ overflow ≤ 10 ^ 310 := by decide +kernel

/-- The digits of a finite number may go on for long: only their ratio to the power of ten counts. -/
theorem isFinite_ofDecimal : (ofDecimal negative digits (-places)).isFinite = true ↔ digits < overflow * 10 ^ places := by
  have hoverflow : 0 < overflow := Nat.lt_trans (by decide) overflow_bounds.1
  have hpower : 0 < 10 ^ places := Nat.pow_pos (by decide)
  have hscaled : 10 ^ places ≤ overflow * 10 ^ places := Nat.le_mul_of_pos_left _ hoverflow
  have hlength := decimalLength_pos digits
  unfold ofDecimal
  simp only [pow_eq]
  split
  · next hzero =>
    exact ⟨fun _ => by omega, fun _ => isFinite_ofPlace.mpr (by decide)⟩
  split
  · -- More than 310 digits stand before the point.
    next hlarge =>
    refine ⟨nofun, fun hlt => ?_⟩
    have hmany : ¬digits < 10 ^ (310 + places) := by
      rw [← decimalLength_le_iff (by omega)]
      omega
    have hlimit := Nat.mul_le_mul_right (10 ^ places) overflow_bounds.2
    rw [Nat.pow_add] at hmany
    omega
  split
  · -- No digit stands within 330 places behind the point.
    next hsmall =>
    have hfew : digits < 10 ^ places := (decimalLength_le_iff (by omega)).mp (by omega)
    exact ⟨fun _ => by omega, fun _ => isFinite_ofPlace.mpr (by decide)⟩
  split
  · next hwhole =>
    obtain rfl : places = 0 := by omega
    rw [isFinite_ofRatio (by decide)]
    simp
  · have hplaces : (- -(places : Int)).toNat = places := by omega
    rw [hplaces, isFinite_ofRatio hpower]

end Binary64

/-! ### Literals -/

/-- The value is finite, if it is a double at all. -/
def Value.Finite (value : Value) : Prop := ∀ x, value = .float x → x.isFinite = true

theorem Value.finite_float_iff {x : Binary64} : (Value.float x).Finite ↔ x.isFinite = true :=
  ⟨fun h => h x rfl, fun h _ hy => Value.float.inj hy ▸ h⟩

open Decimal

variable {negative : Bool} {whole fraction : List Char} {value : Value}

theorem Decimal.finite_int (h : IsDigits whole []) {n : Int64} (hn : int? (minus negative ++ pointed whole []) = some n) :
    ofDigits whole < Binary64.overflow := by
  rw [int?_pointed h] at hn
  split at hn
  · next hbounds =>
    have hsigned : signed negative whole = ofDigits whole ∨ signed negative whole = -ofDigits whole := by
      cases negative
      · exact .inl rfl
      · exact .inr rfl
    have hmin : Int64.minValue.toInt = -2 ^ 63 := rfl
    have hmax : Int64.maxValue.toInt = 2 ^ 63 - 1 := rfl
    have hlimit := Binary64.overflow_bounds.1
    omega
  · cases hn

/-- Digits with a point among them are read however many they are, and as a finite number below the limit only. -/
theorem Decimal.finite_numberOf? (negative : Bool) (h : IsDigits whole fraction) :
    ∃ value, Parser.numberOf? (minus negative ++ pointed whole fraction) = some value ∧
      (value.Finite ↔ ofDigits (whole ++ fraction) < Binary64.overflow * 10 ^ fraction.length) := by
  unfold Parser.numberOf?
  split
  · next n hn =>
    obtain ⟨hpoint, hn⟩ := Option.ite_none_left_eq_some.mp hn
    obtain rfl : fraction = [] := Decidable.of_not_not fun hne => hpoint ((point_mem_iff h).mpr hne)
    refine ⟨.int n, rfl, fun _ => ?_, fun _ => nofun⟩
    rw [List.append_nil, List.length_nil, Nat.pow_zero, Nat.mul_one]
    exact finite_int h hn
  · refine ⟨_, congrArg (Option.map Value.float) (double?_pointed h), ?_⟩
    rw [Value.finite_float_iff, Binary64.isFinite_ofDecimal]

/-! ### Texts -/

/-- The number that a text in digits spells, apart from its sign. -/
def Decimal.magnitude (text : List Char) : ℚ :=
  ofDigits (text.filter Char.isDigit) / 10 ^ (text.dropWhile (· ≠ '.')).tail.length

theorem Decimal.filter_pointed (h : IsDigits whole fraction) :
    (minus negative ++ pointed whole fraction).filter Char.isDigit = whole ++ fraction := by
  have hminus : (minus negative).filter Char.isDigit = [] := by cases negative <;> rfl
  have hwhole : whole.filter Char.isDigit = whole := List.filter_eq_self.mpr h.whole
  have hfraction : fraction.filter Char.isDigit = fraction := List.filter_eq_self.mpr h.fraction
  rw [List.filter_append, hminus, List.nil_append, pointed, List.filter_append, hwhole]
  split
  · next hnil => rw [hnil, List.filter_nil]
  · rw [List.filter_cons_of_neg (by decide), hfraction]

theorem Decimal.tail_pointed (h : IsDigits whole fraction) :
    ((minus negative ++ pointed whole fraction).dropWhile (· ≠ '.')).tail = fraction := by
  have hfront : ∀ c ∈ minus negative ++ whole, (decide (c ≠ '.')) = true := by
    intro c hc
    refine decide_eq_true fun hpoint => ?_
    subst hpoint
    have hdigits : IsDigits whole [] := ⟨h.ne_nil, h.whole, nofun⟩
    exact (point_mem_iff hdigits).mp (by rwa [pointed_nil]) rfl
  by_cases hfraction : fraction = []
  · rw [hfraction, pointed_nil, ← List.append_nil (minus negative ++ whole), Lexeme.dropWhile_append_stop hfront (by simp),
      List.tail_nil]
  · rw [pointed, if_neg hfraction, ← List.append_assoc, Lexeme.dropWhile_append_stop hfront (by simp), List.tail_cons]

theorem Decimal.exists_pointed {text : List Char} (h : Lexeme.IsNumber text) : ∃ negative whole fraction,
    text = minus negative ++ pointed whole fraction ∧ IsDigits whole fraction := by
  obtain ⟨sign, digits, point, rfl, hminus, hne, hdigits, hpoint⟩ := h
  obtain ⟨negative, rfl⟩ : ∃ negative, sign = minus negative := by
    rcases hminus with rfl | rfl
    · exact ⟨false, rfl⟩
    · exact ⟨true, rfl⟩
  rcases hpoint with rfl | ⟨fraction, rfl, hfraction, hall⟩
  · refine ⟨negative, digits, [], ?_, hne, hdigits, nofun⟩
    rw [pointed, if_pos rfl]
  · refine ⟨negative, digits, fraction, ?_, hne, hdigits, hall⟩
    rw [pointed, if_neg hfraction]

/-- Every number in digits is read. It reads as a finite number if it lies below the midpoint of the last finite one
    and 2^1024. -/
theorem Decimal.finite_of_isNumber {text : List Char} (h : Lexeme.IsNumber text) : ∃ value,
    Parser.numberOf? text = some value ∧ (value.Finite ↔ magnitude text < 2 ^ 1024 - 2 ^ 970) := by
  obtain ⟨negative, whole, fraction, rfl, hdigits⟩ := exists_pointed h
  obtain ⟨value, hvalue, hfinite⟩ := finite_numberOf? negative hdigits
  refine ⟨value, hvalue, ?_⟩
  rw [hfinite, magnitude, filter_pointed hdigits, tail_pointed hdigits, ← Binary64.cast_overflow, div_lt_iff₀ (by positivity)]
  exact_mod_cast Iff.rfl

end GridFilter
