import GridFilter.Proofs.Number.Digits
import GridFilter.Proofs.Number.Nearest

/-! A finite number that is written out in full is read back as the same number. -/

namespace GridFilter.Binary64
open Decimal

variable {place : Nat} {tie : Tie}

/-! ### The shortest digits -/

theorem exists_place (digits : Nat) (exponent : Int) :
    ∃ place, ∀ negative, ofDecimal negative digits exponent = ofPlace negative place := by
  by_cases hdigits : digits = 0
  · exact ⟨0, fun negative => by simp [ofDecimal, hdigits, zero]⟩
  simp only [ofDecimal, if_neg hdigits]
  split
  · exact ⟨count, fun negative => by simp [ofPlace]⟩
  split
  · exact ⟨0, fun negative => rfl⟩
  split
  · exact ⟨_, fun negative => rfl⟩
  · exact ⟨_, fun negative => rfl⟩

theorem ofPlace_finite (negative : Bool) (place : Fin count) : ofPlace negative place = .finite negative place := by
  simp [ofPlace]

/-- A decimal that reads back without a sign does so with either. -/
theorem ofDecimal_of_readsBack {digits : Nat} {exponent : Int} {place : Fin count}
    (h : readsBack place digits exponent = true) (negative : Bool) :
    ofDecimal negative digits exponent = .finite negative place := by
  obtain ⟨other, hother⟩ := exists_place digits exponent
  rw [readsBack, beq_iff_eq, hother, ofPlace_finite] at h
  rw [hother]
  unfold ofPlace at h ⊢
  split at h
  · next hcount =>
    cases h
    simp [hcount]
  · cases h

theorem readsBack_of_spelling? {exponent : Int} {digits : Nat} (h : spelling? tie place exponent = some digits) :
    readsBack place digits exponent = true := by
  unfold spelling? at h
  dsimp only at h
  split at h
  · next hbelow habove =>
    cases h
    split
    · exact habove
    · exact hbelow
  · next hbelow _ => cases h; exact hbelow
  · next _ habove => cases h; exact habove
  · cases h

theorem getD_of {α : Type} {P : α → Prop} {found : Option α} {a : α} (hsome : ∀ b, found = some b → P b)
    (hnone : P a) : P (found.getD a) := by
  cases found with
  | none => exact hnone
  | some b => exact hsome b rfl

/-- The number that a spelling, as digits and exponent, rounds to with either sign. -/
def Spells (place : Fin count) (spelling : Nat × Int) : Prop :=
  ∀ negative, ofDecimal negative spelling.1 spelling.2 = .finite negative place

theorem units_lt (place : Fin count) : units place < 2 ^ 53 * 2 ^ 2045 := by
  have hcount : count = 2045 * 2 ^ 52 + 2 ^ 53 := by decide
  calc units place
    _ < units count := units_lt_units place.isLt
    _ = 2 ^ 53 * 2 ^ 2045 := by rw [hcount, units_shifted (Nat.le_refl _) (.inr (by decide))]

theorem ofRatio_five_pow (negative : Bool) (n k : Nat) :
    ofRatio negative (n * 5 ^ k) (10 ^ k) = ofPlace negative (nearest (n * 2 ^ 1074) (2 ^ k)) := by
  have hten : 10 ^ k = 2 ^ k * 5 ^ k := Nat.mul_pow 2 5 k
  rw [ofRatio_eq, hten, Nat.mul_right_comm, nearest_mul (Nat.pow_pos (by decide))]

theorem nearest_two_pow (n k : Nat) : nearest (n * 2 ^ k) (2 ^ k) = nearest n 1 := by
  have h := @nearest_mul n 1 (2 ^ k) (Nat.two_pow_pos k)
  rwa [Nat.one_mul] at h

theorem le_decimalLength {n m k : Nat} (hk : 0 < k) (h : 10 ^ k ≤ m) (hn : 0 < n) : k < decimalLength (n * m) := by
  rw [← Nat.not_le, decimalLength_le_iff hk, Nat.not_lt]
  exact Nat.le_trans h (Nat.le_mul_of_pos_left _ hn)

theorem decimalLength_lt {n m b k : Nat} (hk : 0 < k) (hn : n < b) (hm : 0 < m) (h : b * m ≤ 10 ^ k) :
    decimalLength (n * m) ≤ k := by
  rw [decimalLength_le_iff hk]
  exact Nat.lt_of_lt_of_le (Nat.mul_lt_mul_of_pos_right hn hm) h

theorem ofRatio_full (negative : Bool) (place : Nat) :
    ofRatio negative (units place * 5 ^ 1074) (10 ^ 1074) = ofPlace negative place := by
  have hnearest : nearest (units place * 2 ^ 1074) (2 ^ 1074) = place :=
    (nearest_two_pow (units place) 1074).trans (nearest_units place)
  exact (ofRatio_five_pow negative (units place) 1074).trans (congrArg (ofPlace negative) hnearest)

/-- The magnitude written out in full. -/
theorem spells_full {place : Fin count} (h : place.val ≠ 0) : Spells place (units place * 5 ^ 1074, -1074) := by
  intro negative
  have hpos : 0 < units place := units_lt_units (Nat.pos_of_ne_zero h)
  have hpow (k : Nat) : 0 < 5 ^ k := Nat.pow_pos (by decide)
  -- Neither so few digits that the number vanishes nor so many that it overflows: it is rounded.
  have hlower : 743 < decimalLength (units place * 5 ^ 1074) :=
    le_decimalLength (by decide) (by decide +kernel) hpos
  have hupper : decimalLength (units place * 5 ^ 1074) ≤ 1384 :=
    decimalLength_lt (by decide) (units_lt place) (hpow 1074) (by decide +kernel)
  have hne : units place * 5 ^ 1074 ≠ 0 := Nat.ne_of_gt (Nat.mul_pos hpos (hpow 1074))
  have hexponent : (-(-1074) : Int).toNat = 1074 := rfl
  simp only [ofDecimal, pow_eq]
  rw [if_neg hne, if_neg (by omega), if_neg (by omega), if_neg (by omega), hexponent, ofRatio_full, ofPlace_finite]

theorem spells_firstSpelling {place : Fin count} (h : place.val ≠ 0) : Spells place (firstSpelling tie place) := by
  have hfull := spells_full h
  simp only [firstSpelling, pow_eq]
  -- A spelling that is found has been read back; where none is, the full one stands.
  generalize units place * 5 ^ 1074 = full at hfull ⊢
  refine getD_of (fun spelling hfound => ?_) hfull
  obtain ⟨step, -, hstep⟩ := List.exists_of_findSome?_eq_some hfound
  obtain ⟨digits, hdigits, rfl⟩ := Option.map_eq_some_iff.mp hstep
  exact ofDecimal_of_readsBack (readsBack_of_spelling? hdigits)

/-- The zeros that are dropped stand behind the digits that are kept. -/
theorem dropZeros_spec (digits : List Char) (exponent : Int) :
    ∃ zeros : Nat, digits = (dropZeros digits exponent).1 ++ List.replicate zeros '0' ∧
      (dropZeros digits exponent).2 = exponent + zeros := by
  obtain ⟨front, zeros, hsplit, hzeros, hcount⟩ : ∃ front zeros : List Char, digits = front ++ zeros ∧
      (∀ c ∈ zeros, c = '0') ∧ (digits.reverse.takeWhile (· == '0')).length = zeros.length := by
    refine ⟨(digits.reverse.dropWhile (· == '0')).reverse, (digits.reverse.takeWhile (· == '0')).reverse, ?_,
      fun c hc => ?_, List.length_reverse.symm⟩
    · rw [← List.reverse_append, List.takeWhile_append_dropWhile, List.reverse_reverse]
    · simpa using Lexeme.mem_takeWhile (List.mem_reverse.mp hc)
  refine ⟨(digits.reverse.takeWhile (· == '0')).length, ?_, rfl⟩
  have hfront : digits.take (digits.length - zeros.length) = front := by simp [hsplit]
  rw [dropZeros, hcount, hfront, ← List.eq_replicate_of_mem hzeros]
  exact hsplit

theorem spells_ofDigits {digits : List Char} {exponent : Int} {place : Fin count}
    (h : Spells place (ofDigits digits, exponent)) :
    Spells place (ofDigits (dropZeros digits exponent).1, (dropZeros digits exponent).2) := by
  obtain ⟨zeros, hdigits, hexponent⟩ := dropZeros_spec digits exponent
  intro negative
  have hvalue : ofDigits digits = ofDigits (dropZeros digits exponent).1 * 10 ^ zeros := by
    rw [hdigits, ofDigits_append, ofDigits_zeros, List.length_replicate, Nat.add_zero, ← hdigits]
  have hspells := h negative
  rw [hvalue, ofDecimal_mul_pow, ← hexponent] at hspells
  exact hspells

theorem ofDigits_ne_zero {digits : List Char} {exponent : Int} {place : Fin count} (hplace : place.val ≠ 0)
    (h : Spells place (ofDigits digits, exponent)) : ofDigits digits ≠ 0 := by
  intro hzero
  have hspells := h false
  rw [hzero] at hspells
  have hnone : ofDecimal false 0 exponent = .finite false ⟨0, by decide⟩ := by
    simp [ofDecimal, zero, ofPlace, count, run_eq]
  rw [hnone] at hspells
  cases hspells
  exact hplace rfl

/-- The shortest digits are digits, and they spell the magnitude. -/
theorem shortest_spec (tie : Tie) (place : Fin count) : (shortest tie place).1 ≠ [] ∧
    (∀ c ∈ (shortest tie place).1, c.isDigit = true) ∧
      Spells place (ofDigits (shortest tie place).1, (shortest tie place).2) := by
  by_cases hzero : place.val = 0
  · rw [shortest, if_pos hzero]
    refine ⟨by decide, by simp, fun negative => ?_⟩
    rw [← ofPlace_finite, hzero]
    rfl
  · have hspells : Spells place (firstSpelling tie place) := spells_firstSpelling hzero
    rw [shortest, if_neg hzero]
    generalize firstSpelling tie place = spelling at hspells ⊢
    obtain ⟨n, exponent⟩ := spelling
    rw [← ofDigits_toDigits n] at hspells
    obtain ⟨zeros, hdigits, -⟩ := dropZeros_spec (Nat.toDigits 10 n) exponent
    have hdropped := spells_ofDigits hspells
    refine ⟨fun hnil => ofDigits_ne_zero hzero hdropped ?_, fun c hc => ?_, hdropped⟩
    · exact congrArg ofDigits hnil
    · exact isDigit_of_toDigits c (hdigits ▸ List.mem_append_left _ hc)

/-! ### Written out in full -/

/-- Digits on the two sides of a point that spell what other digits do at an exponent. -/
structure Points (whole fraction digits : List Char) (exponent : Int) : Prop where
  isDigits : IsDigits whole fraction
  ofDecimal_eq (negative : Bool) :
    ofDecimal negative (ofDigits (whole ++ fraction)) (-fraction.length) =
      ofDecimal negative (ofDigits digits) exponent

section Points

variable {digits : List Char} {exponent : Int} (hdigits : ∀ c ∈ digits, c.isDigit = true)
include hdigits

/-- An exponent that is not negative puts zeros behind the digits. -/
theorem points_behind (hne : digits ≠ []) (hexponent : 0 ≤ exponent) :
    Points (digits ++ List.replicate exponent.toNat '0') [] digits exponent := by
  refine ⟨⟨by simp [hne], fun c hc => ?_, by simp⟩, fun negative => ?_⟩
  · rcases List.mem_append.mp hc with hc | hc
    · exact hdigits c hc
    · exact isDigit_of_zeros c hc
  · have hvalue : (0 : Int) + exponent.toNat = exponent := by omega
    rw [List.append_nil, ofDigits_append, ofDigits_zeros, List.length_replicate, Nat.add_zero, List.length_nil,
      ofDecimal_mul_pow, ← hvalue]
    simp

/-- An exponent of fewer places than there are digits puts the point between them. -/
theorem points_within (hne : digits ≠ []) (hexponent : exponent < 0)
    (hplaces : (-exponent).toNat < digits.length) :
    Points (digits.take (digits.length - (-exponent).toNat)) (digits.drop (digits.length - (-exponent).toNat))
      digits exponent := by
  refine ⟨⟨?_, fun c hc => hdigits c (List.mem_of_mem_take hc), fun c hc => hdigits c (List.mem_of_mem_drop hc)⟩,
    fun negative => ?_⟩
  · have hlength := List.length_pos_iff.mpr hne
    rw [Ne, ← List.length_eq_zero_iff, List.length_take]
    omega
  · rw [List.take_append_drop, List.length_drop]
    congr 1
    omega

/-- An exponent of as many places or more puts zeros between the point and the digits. -/
theorem points_before (hexponent : exponent < 0) (hplaces : digits.length ≤ (-exponent).toNat) :
    Points ['0'] (List.replicate ((-exponent).toNat - digits.length) '0' ++ digits) digits exponent := by
  refine ⟨⟨by simp, by simp, fun c hc => ?_⟩, fun negative => ?_⟩
  · rcases List.mem_append.mp hc with hc | hc
    · exact isDigit_of_zeros c hc
    · exact hdigits c hc
  · have hone : ofDigits ['0'] = 0 := by decide
    have hlength : ((-exponent).toNat - digits.length + digits.length : Nat) = (-exponent).toNat := by omega
    rw [ofDigits_append, ofDigits_append, ofDigits_zeros, hone, List.length_append, List.length_replicate, hlength]
    simp only [Nat.zero_mul, Nat.zero_add]
    congr 1
    omega

/-- Digits that are written out around a point spell what they did. -/
theorem writeOut_spec (hne : digits ≠ []) : ∃ whole fraction,
    writeOut false digits exponent = pointed whole fraction ∧ Points whole fraction digits exponent := by
  unfold writeOut
  split
  · next hexponent => exact ⟨_, [], by simp [pointed], points_behind hdigits hne (by omega)⟩
  · next hexponent =>
    dsimp only
    split
    · next hplaces =>
      have hfraction : digits.drop (digits.length - (-exponent).toNat) ≠ [] := by
        rw [Ne, List.drop_eq_nil_iff]
        omega
      exact ⟨_, _, by rw [pointed, if_neg hfraction], points_within hdigits hne (by omega) hplaces⟩
    · next hplaces =>
      have hfraction : List.replicate ((-exponent).toNat - digits.length) '0' ++ digits ≠ [] := by simp [hne]
      exact ⟨['0'], _, by rw [pointed, if_neg hfraction]; rfl, points_before hdigits (by omega) (by omega)⟩

end Points

theorem magnitude_plain (place : Nat) :
    plainFormat.magnitude place = writeOut false (shortest .up place).1 (shortest .up place).2 := by
  have htie : plainFormat.tie = .up := rfl
  unfold Format.magnitude
  rw [htie]
  generalize shortest .up place = spelling
  obtain ⟨digits, exponent⟩ := spelling
  rfl

variable {x : Binary64}

/-- A finite number is written as digits around a point, and these spell it. -/
theorem write_spec (h : x.isFinite = true) : ∃ negative whole fraction,
    plainFormat.write x = minus negative ++ pointed whole fraction ∧ IsDigits whole fraction ∧
      ofDecimal negative (ofDigits (whole ++ fraction)) (-fraction.length) = x := by
  cases x with
  | nan => cases h
  | infinity negative => cases h
  | finite negative place =>
    obtain ⟨hne, hdigits, hspells⟩ := shortest_spec .up place
    obtain ⟨whole, fraction, hwrite, hpoints⟩ := @writeOut_spec _ (shortest .up place).2 hdigits hne
    refine ⟨negative, whole, fraction, ?_, hpoints.isDigits, (hpoints.ofDecimal_eq negative).trans (hspells negative)⟩
    rw [Format.write, magnitude_plain, hwrite, minus]

end GridFilter.Binary64
