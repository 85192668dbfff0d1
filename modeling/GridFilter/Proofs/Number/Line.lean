import GridFilter.Proofs.Number.Nearest
import Mathlib.Algebra.Order.Field.Rat
import Mathlib.Tactic.Positivity
import Mathlib.Tactic.NormNum

/-! The rational number that a double denotes. Places stand on the line in the order of these numbers, and a whole count of
    units is rounded to a place without leaving that order. -/

namespace GridFilter.Binary64

/-! ### Magnitudes with a sign -/

/-- A map of magnitudes on the whole line, where it keeps the sign. -/
def mirrored (f : Nat → Nat) (n : Int) : Int := n.sign * f n.natAbs

section
variable {f : Nat → Nat}

theorem mirrored_neg (f : Nat → Nat) (n : Int) : mirrored f (-n) = -mirrored f n := by
  rw [mirrored, mirrored, Int.sign_neg, Int.natAbs_neg, Int.neg_mul]

theorem mirrored_natCast (hzero : f 0 = 0) (n : Nat) : mirrored f n = f n := by
  rcases Nat.eq_zero_or_pos n with rfl | hpos
  · rw [hzero]
    exact Int.zero_mul _
  · rw [mirrored, Int.sign_eq_one_of_pos (by omega), Int.one_mul, Int.natAbs_natCast]

theorem mirrored_mono (hzero : f 0 = 0) (hf : ∀ m n, m ≤ n → f m ≤ f n) {a b : Int} (h : a ≤ b) :
    mirrored f a ≤ mirrored f b := by
  rcases Int.eq_nat_or_neg a with ⟨m, rfl | rfl⟩ <;> rcases Int.eq_nat_or_neg b with ⟨n, rfl | rfl⟩
  · rw [mirrored_natCast hzero, mirrored_natCast hzero]
    exact Int.ofNat_le.mpr (hf m n (Int.ofNat_le.mp h))
  · obtain ⟨rfl, rfl⟩ : m = 0 ∧ n = 0 := by omega
    exact Int.le_refl _
  · rw [mirrored_neg, mirrored_natCast hzero, mirrored_natCast hzero]
    omega
  · rw [mirrored_neg, mirrored_neg, mirrored_natCast hzero, mirrored_natCast hzero]
    exact Int.neg_le_neg (Int.ofNat_le.mpr (hf n m (by omega)))

end

/-- The signed magnitude at a place of the line, in units. -/
def lineUnits (line : Int) : Int := mirrored units line

/-- The place of the line that a signed count of units is rounded to. -/
def lineNearest (count : Int) : Int := mirrored (nearest · 1) count

theorem lineNearest_lineUnits (line : Int) : lineNearest (lineUnits line) = line := by
  unfold lineNearest lineUnits
  rcases Int.eq_nat_or_neg line with ⟨place, rfl | rfl⟩
  · rw [mirrored_natCast rfl, mirrored_natCast rfl, nearest_units]
  · rw [mirrored_neg, mirrored_natCast rfl, mirrored_neg, mirrored_natCast rfl, nearest_units]

theorem lineNearest_mono {a b : Int} (h : a ≤ b) : lineNearest a ≤ lineNearest b :=
  mirrored_mono rfl (fun _ _ hle => nearest_mono (by decide) (by decide) (Nat.mul_le_mul_right 1 hle)) h

/-- Places stand in the order of their magnitudes, since rounding takes each magnitude back to its place. -/
theorem lineUnits_lt {a b : Int} (h : a < b) : lineUnits a < lineUnits b := by
  refine Int.lt_of_not_ge fun hle => ?_
  have hback := lineNearest_mono hle
  rw [lineNearest_lineUnits, lineNearest_lineUnits] at hback
  omega

/-! ### Rational numbers -/

/-- So many units. -/
def ofUnits (count : ℤ) : ℚ := count / 2 ^ 1074

/-- The rational number that a double denotes, if it is finite. -/
def rational? : Binary64 → Option ℚ
  | .finite negative place => some (ofUnits (if negative then -units place else units place))
  | .nan | .infinity _ => none

theorem ofUnits_lt {a b : Int} (h : a < b) : ofUnits a < ofUnits b :=
  div_lt_div_of_pos_right (Int.cast_lt.mpr h) (by positivity)

theorem ofUnits_mul (n : ℤ) : ofUnits (n * 2 ^ 1074) = n := by
  have hne : (2 : ℚ) ^ 1074 ≠ 0 := by positivity
  rw [ofUnits, Int.cast_mul, Int.cast_pow, Int.cast_ofNat, mul_div_cancel_right₀ _ hne]

theorem rational?_of_line {x : Binary64} {place : Int} (hfinite : x.isFinite = true) (hline : x.line = some place) :
    x.rational? = some (ofUnits (lineUnits place)) := by
  cases x with
  | nan => cases hfinite
  | infinity negative => cases hfinite
  | finite negative magnitude =>
    obtain rfl := Option.some.inj hline
    cases negative with
    | false =>
      rw [if_neg Bool.false_ne_true, lineUnits, mirrored_natCast rfl]
      rfl
    | true =>
      rw [if_pos rfl, lineUnits, mirrored_neg, mirrored_natCast rfl]
      rfl

theorem exists_line_of_rational? {x : Binary64} {a : ℚ} (h : x.rational? = some a) :
    ∃ place, x.isFinite = true ∧ x.line = some place ∧ ofUnits (lineUnits place) = a := by
  cases x with
  | nan => cases h
  | infinity negative => cases h
  | finite negative magnitude => exact ⟨_, rfl, rfl, Option.some.inj ((rational?_of_line rfl rfl).symm.trans h)⟩

/-- A power of two keeps the sign, so that rounding a multiple of it rounds the magnitude and sets the sign again. -/
theorem lineNearest_mul_pow (n : Int) (k : Nat) : lineNearest (n * 2 ^ k) =
    if decide (n < 0) = true then -(nearest (n.natAbs * 2 ^ k) 1 : Int) else nearest (n.natAbs * 2 ^ k) 1 := by
  have hsign : (2 ^ k : Int).sign = 1 := Int.sign_eq_one_of_pos (by positivity)
  have habs : (2 ^ k : Int).natAbs = 2 ^ k := Int.natAbs_pow 2 k
  rw [lineNearest, mirrored, Int.sign_mul, hsign, Int.mul_one, Int.natAbs_mul, habs]
  rcases Int.lt_trichotomy n 0 with hneg | rfl | hpos
  · rw [if_pos (decide_eq_true hneg), Int.sign_eq_neg_one_of_neg hneg, Int.neg_one_mul]
  · rw [if_neg (by decide), Int.natAbs_zero, Nat.zero_mul]
    rfl
  · rw [if_neg (by simpa using Int.le_of_lt hpos), Int.sign_eq_one_of_pos hpos, Int.one_mul]

/-- A whole number of 64 bits is rounded to a finite one. -/
theorem ofInt_finite {n : Int} (h : n.natAbs ≤ 2 ^ 63) :
    (ofInt n).isFinite = true ∧ (ofInt n).line = some (lineNearest (n * 2 ^ 1074)) := by
  have hscale (k : Nat) : 2 ^ 63 * 2 ^ k = 2 ^ 52 * 2 ^ (11 + k) := by
    rw [Nat.pow_add 2 11, ← Nat.mul_assoc, ← Nat.pow_add 2 52 11]
  have hbound : nearest (n.natAbs * 2 ^ 1074) 1 ≤ (11 + 1074) * 2 ^ 52 + 2 ^ 52 := by
    rw [← nearest_units ((11 + 1074) * 2 ^ 52 + 2 ^ 52), units_shifted (by decide) (.inr (by decide)), ← hscale]
    exact nearest_mono (by decide) (by decide) (Nat.mul_le_mul_right 1 (Nat.mul_le_mul_right _ h))
  have hcount : nearest (n.natAbs * 2 ^ 1074) 1 < count := Nat.lt_of_le_of_lt hbound (by decide)
  rw [ofInt, ofRatio_eq, ofPlace, dif_pos hcount, lineNearest_mul_pow]
  exact ⟨rfl, rfl⟩

end GridFilter.Binary64
