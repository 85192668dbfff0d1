import GridFilter.Number.Shortest
import Mathlib.Algebra.Group.Nat.Defs

/-! Rounding to double precision: it looks at the ratio alone, and a number that is one already keeps its place. So the
    digits and the exponent of a decimal may be shifted against each other. -/

namespace GridFilter.Binary64

/-! ### Powers -/

theorem pow_eq (base exponent : Nat) : Nat.pow base exponent = base ^ exponent := rfl

theorem run_eq : run = 2 ^ 52 := rfl

theorem units_eq (place : Nat) : units place =
    if place < 2 ^ 52 then place else (2 ^ 52 + place % 2 ^ 52) * 2 ^ (place / 2 ^ 52 - 1) := rfl

theorem ofRatio_eq (negative : Bool) (num den : Nat) :
    ofRatio negative num den = ofPlace negative (nearest (num * 2 ^ 1074) den) := by
  simp only [ofRatio, pow_eq]

/-! ### Ratios -/

/-- Only the ratio is rounded. -/
theorem nearest_mul {num den k : Nat} (hk : 0 < k) : nearest (num * k) (den * k) = nearest num den := by
  have hstep (shift : Nat) : den * k * 2 ^ shift = den * 2 ^ shift * k := by
    rw [Nat.mul_assoc, Nat.mul_comm k, Nat.mul_assoc]
  have hmod (step : Nat) : 2 * (num * k % (step * k)) = 2 * (num % step) * k := by
    rw [Nat.mul_mod_mul_right, Nat.mul_assoc]
  have hless (a b : Nat) : a * k < b * k ↔ a < b := Nat.mul_lt_mul_right hk
  have hequal (a b : Nat) : (a * k == b * k) = (a == b) := by
    rw [Bool.eq_iff_iff, beq_iff_eq, beq_iff_eq, Nat.mul_left_inj (by omega)]
  simp only [nearest, pow_eq, Nat.mul_div_mul_right _ _ hk, hstep, hmod, hless, hequal]

theorem ofRatio_mul {negative : Bool} {num den k : Nat} (hk : 0 < k) :
    ofRatio negative (num * k) (den * k) = ofRatio negative num den := by
  rw [ofRatio_eq, ofRatio_eq, Nat.mul_right_comm, nearest_mul hk]

theorem nearest_of_exact {significand shift : Nat} (h : Nat.log2 (significand * 2 ^ shift) - 52 = shift) :
    nearest (significand * 2 ^ shift) 1 = shift * 2 ^ 52 + significand := by
  have hpos : 0 < 2 ^ shift := Nat.two_pow_pos shift
  simp [nearest, run_eq, h, Nat.mul_div_cancel _ hpos, Nat.ne_of_lt hpos]

theorem log2_shifted {significand : Nat} (shift : Nat) (h : 2 ^ 52 ≤ significand) (h' : significand < 2 ^ 53) :
    Nat.log2 (significand * 2 ^ shift) - 52 = shift := by
  have hpos : 0 < 2 ^ shift := Nat.two_pow_pos shift
  have hne : significand * 2 ^ shift ≠ 0 := Nat.mul_ne_zero (by omega) (by omega)
  have hlog : Nat.log2 (significand * 2 ^ shift) = 52 + shift := by
    rw [Nat.log2_eq_iff hne, Nat.add_right_comm, Nat.pow_add 2 52, Nat.pow_add 2 (52 + 1)]
    exact ⟨Nat.mul_le_mul_right _ h, Nat.mul_lt_mul_of_pos_right h' hpos⟩
  rw [hlog, Nat.add_sub_cancel_left]

/-- A magnitude is nearest to itself. -/
theorem nearest_units (place : Nat) : nearest (units place) 1 = place := by
  rw [units_eq]
  split
  · next h =>
    have hlog : Nat.log2 (place * 2 ^ 0) - 52 = 0 := by
      rw [Nat.pow_zero, Nat.mul_one]
      by_cases hzero : place = 0
      · rw [hzero]
        rfl
      · exact Nat.sub_eq_zero_of_le (Nat.le_of_lt ((Nat.log2_lt hzero).mpr h))
    simpa using nearest_of_exact hlog
  · next h =>
    have hmod : place % 2 ^ 52 < 2 ^ 52 := Nat.mod_lt _ (by decide)
    have hdiv : 1 ≤ place / 2 ^ 52 := (Nat.one_le_div_iff (by decide)).mpr (Nat.not_lt.mp h)
    have hsplit := Nat.div_add_mod place (2 ^ 52)
    rw [nearest_of_exact (log2_shifted _ (by omega) (by omega))]
    omega

/-! ### Decimals -/

theorem decimalLength_le_iff {n k : Nat} (hk : 0 < k) : decimalLength n ≤ k ↔ n < 10 ^ k :=
  Nat.length_toDigits_le_iff (by decide) hk

theorem decimalLength_pos (n : Nat) : 0 < decimalLength n := Nat.length_toDigits_pos

theorem decimalLength_mul_pow {digits : Nat} (zeros : Nat) (h : digits ≠ 0) :
    decimalLength (digits * 10 ^ zeros) = decimalLength digits + zeros := by
  have hpos : 0 < 10 ^ zeros := Nat.pow_pos (by decide)
  apply Nat.le_antisymm
  · have hdigits := (decimalLength_le_iff (decimalLength_pos digits)).mp (Nat.le_refl _)
    rw [decimalLength_le_iff (Nat.add_pos_left (decimalLength_pos digits) zeros), Nat.pow_add]
    exact Nat.mul_lt_mul_of_pos_right hdigits hpos
  · have hall := (decimalLength_le_iff (decimalLength_pos (digits * 10 ^ zeros))).mp (Nat.le_refl _)
    have hzeros : 10 ^ zeros < 10 ^ decimalLength (digits * 10 ^ zeros) :=
      Nat.lt_of_le_of_lt (Nat.le_mul_of_pos_left _ (by omega)) hall
    obtain ⟨more, hmore⟩ := Nat.exists_eq_add_of_lt ((Nat.pow_lt_pow_iff_right (by decide)).mp hzeros)
    rw [hmore] at hall ⊢
    have hdigits : digits < 10 ^ (more + 1) := by
      rw [Nat.add_assoc, Nat.pow_add, Nat.mul_comm digits] at hall
      exact Nat.lt_of_mul_lt_mul_left hall
    have hlength := (decimalLength_le_iff (Nat.succ_pos more)).mpr hdigits
    omega

/-- The zeros behind the digits may be taken into the exponent. -/
theorem ofDecimal_mul_pow (negative : Bool) (digits zeros : Nat) (exponent : Int) :
    ofDecimal negative (digits * 10 ^ zeros) exponent = ofDecimal negative digits (exponent + zeros) := by
  have hpos (k : Nat) : 0 < 10 ^ k := Nat.pow_pos (by decide)
  by_cases hdigits : digits = 0
  · simp [ofDecimal, hdigits]
  · have hall : digits * 10 ^ zeros ≠ 0 := Nat.mul_ne_zero hdigits (by have := hpos zeros; omega)
    have hsize : exponent + decimalLength (digits * 10 ^ zeros) = exponent + zeros + decimalLength digits := by
      rw [decimalLength_mul_pow zeros hdigits]
      omega
    simp only [ofDecimal, pow_eq, if_neg hdigits, if_neg hall, hsize]
    split
    · rfl
    split
    · rfl
    by_cases hexponent : 0 ≤ exponent
    · have hsum : (exponent + zeros).toNat = zeros + exponent.toNat := by omega
      rw [if_pos hexponent, if_pos (by omega), hsum, Nat.pow_add, Nat.mul_assoc]
    -- Zeros may take a power in the denominator to the numerator, or leave a smaller one there.
    by_cases hshifted : 0 ≤ exponent + zeros
    · have hzeros : zeros = (exponent + zeros).toNat + (-exponent).toNat := by omega
      have hscaled := @ofRatio_mul negative (digits * 10 ^ (exponent + zeros).toNat) 1 _ (hpos (-exponent).toNat)
      rw [Nat.one_mul, Nat.mul_assoc, ← Nat.pow_add, ← hzeros] at hscaled
      rw [if_neg hexponent, if_pos hshifted, hscaled]
    · have hneg : (-exponent).toNat = (-(exponent + zeros)).toNat + zeros := by omega
      have hscaled := @ofRatio_mul negative digits (10 ^ (-(exponent + zeros)).toNat) _ (hpos zeros)
      rw [← Nat.pow_add, ← hneg] at hscaled
      rw [if_neg hexponent, if_neg hshifted, hscaled]

end GridFilter.Binary64
