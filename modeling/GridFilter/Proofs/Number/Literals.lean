import GridFilter.Node.Parser
import GridFilter.Proofs.Number.ReadBack
import GridFilter.Value.Spelling

/-! Number literals: the spelling of a whole number or of a finite one is a number, and reads back to an equal
    value. -/

namespace GridFilter
open Decimal Lexeme Binary64

variable {x : Binary64} {n : Int64} {negative : Bool} {digits whole fraction : List Char}

/-! ### Whole numbers -/

/-- The whole number that digits and a sign spell. -/
def Decimal.signed (negative : Bool) (digits : List Char) : Int :=
  if negative then -(ofDigits digits : Int) else ofDigits digits

theorem Decimal.pointed_nil : pointed whole [] = whole := by simp [pointed]

theorem Decimal.int?_pointed (h : IsDigits whole []) :
    int? (minus negative ++ pointed whole []) =
      if Int64.minValue.toInt ≤ signed negative whole ∧ signed negative whole ≤ Int64.maxValue.toInt then
        some (Int64.ofInt (signed negative whole)) else none := by
  have hwhole : (whole ≠ [] && whole.all Char.isDigit) = true := by
    simpa [h.ne_nil] using h.whole
  unfold int?
  rw [signOf_minus h, pointed_nil]
  dsimp only
  rw [if_pos hwhole]
  rfl

theorem Decimal.point_mem_iff (h : IsDigits whole fraction) :
    '.' ∈ minus negative ++ pointed whole fraction ↔ fraction ≠ [] := by
  have hminus : '.' ∉ minus negative := by cases negative <;> decide
  have hwhole : '.' ∉ whole := fun hmem => absurd (h.whole _ hmem) (by decide)
  by_cases hfraction : fraction = []
  · simp [pointed, hminus, hwhole, hfraction]
  · simp [pointed, hfraction]

/-! ### Double precision -/

theorem Binary64.same_refl (h : x.isFinite = true) : x.same x = true := by
  cases x with
  | nan => cases h
  | infinity negative => cases h
  | finite negative place => simp [same, related, line]

theorem Binary64.ofInt_zero : ofInt 0 = zero false := by
  have hnearest := nearest_units 0
  simp only [ofInt, ofRatio, Int.natAbs_zero, Nat.zero_mul]
  exact congrArg (ofPlace false) hnearest

theorem Binary64.ofInt_signed_of_ne_zero (hne : ofDigits digits ≠ 0) (h : x.isFinite = true)
    (hx : ofDecimal negative (ofDigits digits) 0 = x) : ofInt (signed negative digits) = x := by
  subst hx
  have hsize : ¬((0 : Int) + decimalLength (ofDigits digits) < -330) := by omega
  have hsign : decide (signed negative digits < 0) = negative := by
    cases negative
    · simp [signed]
    · simp only [signed, if_true, decide_eq_true_eq]
      omega
  have habs : (signed negative digits).natAbs = ofDigits digits := by cases negative <;> simp [signed]
  unfold ofDecimal at h ⊢
  rw [if_neg hne] at h ⊢
  dsimp only at h ⊢
  split at h
  · cases h
  · next hlarge =>
    rw [if_neg hlarge, if_neg hsize, if_pos (Int.le_refl 0), ofInt, hsign, habs]
    simp

/-- A finite number that is spelled without a fraction is the nearest to the whole number so spelled. -/
theorem Binary64.ofInt_signed (h : x.isFinite = true) (hx : ofDecimal negative (ofDigits digits) 0 = x) :
    (ofInt (signed negative digits)).same x = true := by
  by_cases hzero : ofDigits digits = 0
  · have hsigned : signed negative digits = 0 := by simp [signed, hzero]
    have hdecimal : ofDecimal negative 0 0 = zero negative := rfl
    rw [hzero, hdecimal] at hx
    rw [hsigned, ofInt_zero, ← hx]
    cases negative <;> rfl
  · rw [ofInt_signed_of_ne_zero hzero h hx]
    exact same_refl h

/-! ### Literals -/

/-- The spelling of a finite number is a number, which reads as an equal value. -/
theorem Value.readsBack_float (h : x.isFinite = true) :
    IsNumber (spelling (.float x)).toList ∧
      ∃ value, Parser.numberOf? (spelling (.float x)).toList = some value ∧ value.same (.float x) = true := by
  obtain ⟨negative, whole, fraction, hwrite, hdigits, hx⟩ := write_spec h
  have htext : (spelling (.float x)).toList = minus negative ++ pointed whole fraction := by
    rw [spelling, toText, String.toList_ofList, hwrite]
  rw [htext]
  refine ⟨hdigits.isNumber, ?_⟩
  have hdouble : double? (minus negative ++ pointed whole fraction) = some x := by rw [double?_pointed hdigits, hx]
  by_cases hfraction : fraction = []
  · subst hfraction
    rw [List.append_nil] at hx
    have hpoint : '.' ∉ minus negative ++ pointed whole [] := fun hmem => (point_mem_iff hdigits).mp hmem rfl
    unfold Parser.numberOf?
    rw [if_neg hpoint, int?_pointed hdigits, hdouble]
    split
    · next n hn =>
      split at hn
      · next hbounds =>
        cases hn
        refine ⟨_, rfl, ?_⟩
        rw [same, ofWhole, Int64.toInt_ofInt_of_le hbounds.1 (Int.lt_of_le_of_lt hbounds.2 (by decide))]
        exact ofInt_signed h hx
      · cases hn
    · exact ⟨_, rfl, same_refl h⟩
  · have hpoint : '.' ∈ minus negative ++ pointed whole fraction := (point_mem_iff hdigits).mpr hfraction
    unfold Parser.numberOf?
    rw [if_pos hpoint, hdouble]
    exact ⟨_, rfl, same_refl h⟩

theorem Value.toList_spelling_int : ∃ negative digits,
    (spelling (.int n)).toList = minus negative ++ pointed digits [] ∧ IsDigits digits [] ∧
      signed negative digits = n.toInt := by
  refine ⟨n.toInt < 0, Nat.toDigits 10 n.toInt.natAbs, ?_, ⟨Nat.toDigits_ne_nil, isDigit_of_toDigits, nofun⟩, ?_⟩
  · rw [spelling, Int.toString_eq_repr, Int.repr_eq_if, pointed_nil]
    split
    · next hnonneg =>
      have habs : n.toInt.toNat = n.toInt.natAbs := by omega
      simp [minus, Int.not_lt.mpr hnonneg, habs, Nat.toList_repr]
    · next hneg =>
      have habs : (-n.toInt).toNat = n.toInt.natAbs := by omega
      simp [minus, Int.not_le.mp hneg, habs, Nat.toList_repr]
  · simp only [signed, ofDigits_toDigits, decide_eq_true_eq]
    split <;> omega

/-- The spelling of a whole number is a number, which reads as the same value. -/
theorem Value.readsBack_int : IsNumber (spelling (.int n)).toList ∧
    Parser.numberOf? (spelling (.int n)).toList = some (.int n) := by
  obtain ⟨negative, digits, htext, hdigits, hsigned⟩ := @toList_spelling_int n
  have hpoint : '.' ∉ minus negative ++ pointed digits [] := fun hmem => (point_mem_iff hdigits).mp hmem rfl
  rw [htext, Parser.numberOf?, if_neg hpoint, int?_pointed hdigits, hsigned,
    if_pos ⟨n.minValue_le_toInt, n.toInt_le⟩, Int64.ofInt_toInt]
  exact ⟨hdigits.isNumber, rfl⟩

end GridFilter
