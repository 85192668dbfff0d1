import GridFilter.Proofs.Number.Rounding

/-! Which place a ratio is rounded to. It goes above a place exactly where it lies above the midpoint of the magnitude there
    and the next one, or on the midpoint of an odd place. Rounding keeps the order therefore, and a ratio overflows from
    the midpoint behind the last finite magnitude on. -/

namespace GridFilter.Binary64

variable {place num den : Nat}

/-! ### Neighbours -/

/-- The magnitude of a significand that is shifted. The significand 2^53 is the first one of the next run. -/
theorem units_shifted {shift significand : Nat} (h : significand ≤ 2 ^ 53) (hrun : shift = 0 ∨ 2 ^ 52 ≤ significand) :
    units (shift * 2 ^ 52 + significand) = significand * 2 ^ shift := by
  rw [units_eq]
  by_cases hsmall : significand < 2 ^ 52
  · obtain rfl : shift = 0 := by omega
    rw [if_pos (by omega)]
    simp
  · rw [if_neg (by omega)]
    by_cases hlast : significand = 2 ^ 53
    · have hdiv : (shift * 2 ^ 52 + significand) / 2 ^ 52 - 1 = shift + 1 := by omega
      have hmod : (shift * 2 ^ 52 + significand) % 2 ^ 52 = 0 := by omega
      rw [hdiv, hmod, hlast, Nat.pow_succ]
      omega
    · have hdiv : (shift * 2 ^ 52 + significand) / 2 ^ 52 - 1 = shift := by omega
      have hmod : 2 ^ 52 + (shift * 2 ^ 52 + significand) % 2 ^ 52 = significand := by omega
      rw [hdiv, hmod]

theorem exists_shift (place : Nat) : ∃ shift significand, place = shift * 2 ^ 52 + significand ∧
    significand < 2 ^ 53 ∧ (shift = 0 ∨ 2 ^ 52 ≤ significand) := by
  by_cases h : place < 2 ^ 53
  · exact ⟨0, place, by omega, h, .inl rfl⟩
  · exact ⟨place / 2 ^ 52 - 1, 2 ^ 52 + place % 2 ^ 52, by omega, by omega, .inr (by omega)⟩

theorem units_lt_succ (place : Nat) : units place < units (place + 1) := by
  obtain ⟨shift, significand, rfl, h, hrun⟩ := exists_shift place
  rw [Nat.add_assoc, units_shifted (by omega) hrun, units_shifted (by omega) (by omega)]
  exact Nat.mul_lt_mul_of_pos_right (Nat.lt_succ_self significand) (Nat.two_pow_pos shift)

theorem units_lt_units {other : Nat} (h : place < other) : units place < units other := by
  induction h with
  | refl => exact units_lt_succ place
  | step _ ih => exact Nat.lt_trans ih (units_lt_succ _)

theorem units_le_units {other : Nat} (h : place ≤ other) : units place ≤ units other := by
  rcases Nat.eq_or_lt_of_le h with rfl | h
  · exact Nat.le_refl _
  · exact Nat.le_of_lt (units_lt_units h)

/-! ### Midpoints -/

/-- The ratio `num / den` goes above a place: it lies above the midpoint of the magnitude there and the next one, or on
    that midpoint where the place is odd. -/
def Exceeds (place num den : Nat) : Prop :=
  (units place + units (place + 1)) * den < 2 * num ∨
    (units place + units (place + 1)) * den = 2 * num ∧ place % 2 = 1

/-- The shift of a ratio leaves a significand of 53 bits, the first of which is set unless nothing is shifted. -/
theorem significand_bounds (n : Nat) : n / 2 ^ (Nat.log2 n - 52) < 2 ^ 53 ∧
    (Nat.log2 n - 52 = 0 ∨ 2 ^ 52 ≤ n / 2 ^ (Nat.log2 n - 52)) := by
  have hpos : 0 < 2 ^ (Nat.log2 n - 52) := Nat.two_pow_pos _
  constructor
  · rw [Nat.div_lt_iff_lt_mul hpos, ← Nat.pow_add]
    exact Nat.lt_of_lt_of_le Nat.lt_log2_self (Nat.pow_le_pow_right (by decide) (by omega))
  · by_cases hshift : Nat.log2 n - 52 = 0
    · exact .inl hshift
    · have hne : n ≠ 0 := by
        rintro rfl
        exact hshift rfl
      refine .inr ((Nat.le_div_iff_mul_le hpos).mpr ?_)
      rw [← Nat.pow_add]
      exact Nat.le_trans (Nat.pow_le_pow_right (by decide) (by omega)) (Nat.log2_self_le hne)

/-- A ratio lies between two neighbours, and is rounded to the upper one where it exceeds the lower. -/
theorem nearest_between (num : Nat) (hden : 0 < den) : ∃ place, units place * den ≤ num ∧ num < units (place + 1) * den ∧
    (nearest num den = place ∧ ¬Exceeds place num den ∨ nearest num den = place + 1 ∧ Exceeds place num den) := by
  obtain ⟨hbelow, hrun⟩ := significand_bounds (num / den)
  simp only [nearest, pow_eq, run_eq]
  generalize Nat.log2 (num / den) - 52 = shift at hbelow hrun ⊢
  rw [Nat.div_div_eq_div_mul] at hbelow hrun
  have hpos : 0 < den * 2 ^ shift := Nat.mul_pos hden (Nat.two_pow_pos shift)
  have hsplit := Nat.div_add_mod num (den * 2 ^ shift)
  have hrest := Nat.mod_lt num hpos
  have hlower : units (shift * 2 ^ 52 + num / (den * 2 ^ shift)) * den =
      den * 2 ^ shift * (num / (den * 2 ^ shift)) := by
    rw [units_shifted (by omega) hrun]
    ac_rfl
  have hupper : units (shift * 2 ^ 52 + num / (den * 2 ^ shift) + 1) * den =
      den * 2 ^ shift * (num / (den * 2 ^ shift)) + den * 2 ^ shift := by
    rw [Nat.add_assoc, units_shifted (by omega) (by omega), ← Nat.mul_add_one, Nat.mul_comm den, Nat.mul_right_comm]
    ac_rfl
  refine ⟨shift * 2 ^ 52 + num / (den * 2 ^ shift), by omega, by omega, ?_⟩
  unfold Exceeds
  rw [Nat.add_mul, hlower, hupper]
  generalize den * 2 ^ shift * (num / (den * 2 ^ shift)) = whole at hsplit
  split
  · next h =>
    simp only [Bool.or_eq_true, Bool.and_eq_true, decide_eq_true_eq, beq_iff_eq] at h
    omega
  · next h =>
    simp only [Bool.or_eq_true, Bool.and_eq_true, decide_eq_true_eq, beq_iff_eq] at h
    omega

theorem lt_nearest_iff (hden : 0 < den) : place < nearest num den ↔ Exceeds place num den := by
  obtain ⟨lower, hlower, hupper, hnearest⟩ := nearest_between num hden
  rcases Nat.lt_trichotomy place lower with h | rfl | h
  · -- Below the lower neighbour both hold.
    have hplace : units place * den < units lower * den := Nat.mul_lt_mul_of_pos_right (units_lt_units h) hden
    have hnext : units (place + 1) * den ≤ units lower * den := Nat.mul_le_mul_right den (units_le_units h)
    refine ⟨fun _ => .inl ?_, fun _ => by omega⟩
    rw [Nat.add_mul]
    omega
  · rcases hnearest with ⟨hnearest, hnot⟩ | ⟨hnearest, hexceeds⟩
    · exact ⟨fun hlt => absurd hlt (by omega), fun hexceeds => absurd hexceeds hnot⟩
    · exact ⟨fun _ => hexceeds, fun _ => by omega⟩
  · -- From the upper neighbour on neither does.
    have hplace : units (lower + 1) * den ≤ units place * den := Nat.mul_le_mul_right den (units_le_units h)
    have hnext : units place * den < units (place + 1) * den := Nat.mul_lt_mul_of_pos_right (units_lt_succ place) hden
    unfold Exceeds
    rw [Nat.add_mul]
    omega

/-! ### Order -/

theorem Exceeds.mono {more other : Nat} (hden : 0 < den) (hother : 0 < other) (h : num * other ≤ more * den)
    (hexceeds : Exceeds place num den) : Exceeds place more other := by
  unfold Exceeds at hexceeds ⊢
  generalize units place + units (place + 1) = twice at hexceeds ⊢
  have hswap : twice * den * other = twice * other * den := Nat.mul_right_comm twice den other
  have htwice : 2 * num * other ≤ 2 * more * den := by
    rw [Nat.mul_assoc, Nat.mul_assoc]
    exact Nat.mul_le_mul_left 2 h
  rcases hexceeds with hlt | ⟨heq, hodd⟩
  · have hscaled : twice * den * other < 2 * num * other := Nat.mul_lt_mul_of_pos_right hlt hother
    exact .inl (Nat.lt_of_mul_lt_mul_right (by omega : twice * other * den < 2 * more * den))
  · rw [heq] at hswap
    have hle : twice * other ≤ 2 * more := Nat.le_of_mul_le_mul_right (by omega : twice * other * den ≤ 2 * more * den) hden
    omega

/-- Rounding keeps the order of ratios. -/
theorem nearest_mono {more other : Nat} (hden : 0 < den) (hother : 0 < other) (h : num * other ≤ more * den) :
    nearest num den ≤ nearest more other := by
  refine Nat.le_of_not_lt fun hlt => ?_
  have hexceeds := (lt_nearest_iff hden).mp hlt
  exact Nat.lt_irrefl _ ((lt_nearest_iff hother).mpr (hexceeds.mono hden hother h))

end GridFilter.Binary64
