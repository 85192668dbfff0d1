import GridFilter.Number.Format
import GridFilter.Number.Decimal
import GridFilter.Proofs.Number.Rounding
import GridFilter.Proofs.Token.Numbers

/-! Rows of digits: the numbers that they spell, and what the reader of decimals makes of them. -/

namespace GridFilter.Decimal
open Lexeme

variable {digits whole fraction point rest : List Char} {negative : Bool}

/-! ### What digits spell -/

theorem ofDigits_append (front behind : List Char) :
    ofDigits (front ++ behind) = ofDigits front * 10 ^ behind.length + ofDigits behind := by
  have hfront : ofDigits (front ++ behind) = Nat.ofDigitChars 10 behind (ofDigits front) := by
    simp [ofDigits, Nat.ofDigitChars_eq_foldl]
  rw [hfront, Nat.ofDigitChars_eq_ofDigitChars_zero, Nat.mul_comm]
  rfl

theorem ofDigits_zeros (count : Nat) : ofDigits (List.replicate count '0') = 0 :=
  Nat.ofDigitChars_replicate_zero.trans (Nat.mul_zero _)

theorem ofDigits_toDigits (n : Nat) : ofDigits (Nat.toDigits 10 n) = n := Nat.ofDigitChars_ten_toDigits

theorem isDigit_of_toDigits {n : Nat} : ∀ c ∈ Nat.toDigits 10 n, c.isDigit = true :=
  fun _ hc => Nat.isDigit_of_mem_toDigits (by decide) (by decide) hc

/-- Only zero starts with a zero. -/
theorem head?_toDigits {n : Nat} (hn : 0 < n) : (Nat.toDigits 10 n).head? ≠ some '0' := by
  induction n using Nat.strongRecOn with
  | ind n ih =>
    by_cases hsmall : n < 10
    · have hdigit : ∀ m < 10, 0 < m → [Nat.digitChar m].head? ≠ some '0' := by decide
      rw [Nat.toDigits_of_lt_base hsmall]
      exact hdigit n hsmall hn
    · have hne : Nat.toDigits 10 (n / 10) ≠ [] := Nat.toDigits_ne_nil
      rw [Nat.toDigits_of_base_le (by decide) (by omega), List.head?_append, List.head?_eq_some_head hne, Option.some_or,
        ← List.head?_eq_some_head hne]
      exact ih (n / 10) (by omega) (by omega)

theorem digit?_ten {c : Char} (hc : c.isDigit = true) : Radix.digit? 10 c = some (c.toNat - '0'.toNat) := by
  have hbounds : '0' ≤ c ∧ c ≤ '9' := by
    simpa [Char.isDigit, Char.le_def] using hc
  have hsmall : c.toNat - '0'.toNat < 10 := by
    have hnine : c.toNat ≤ '9'.toNat := hbounds.2
    simp at hnine ⊢
    omega
  rw [Radix.digit?, Radix.hexDigit?, if_pos hbounds, Option.filter_some_pos (by simpa using hsmall)]

/-- In base ten digits spell what they spell as a decimal. -/
theorem ofDigits?_ten (hne : digits ≠ []) (hdigits : ∀ c ∈ digits, c.isDigit = true) :
    Radix.ofDigits? 10 digits = some (ofDigits digits) := by
  have hfold (digits : List Char) (hdigits : ∀ c ∈ digits, c.isDigit = true) (n : Nat) :
      digits.foldl (fun n c => do return 10 * (← n) + (← Radix.digit? 10 c)) (some n) =
        some (digits.foldl (fun n c => 10 * n + (c.toNat - '0'.toNat)) n) := by
    induction digits generalizing n with
    | nil => rfl
    | cons c digits ih =>
      obtain ⟨hc, hdigits⟩ := List.forall_mem_cons.mp hdigits
      rw [List.foldl_cons, List.foldl_cons, digit?_ten hc]
      exact ih hdigits _
  rw [Radix.ofDigits?, if_neg hne]
  exact hfold digits hdigits 0

theorem isDigit_of_zeros {count : Nat} : ∀ c ∈ List.replicate count '0', c.isDigit = true := by
  intro c hc
  obtain rfl := List.eq_of_mem_replicate hc
  decide

/-! ### Reading numbers -/

/-- The digits of a number behind its sign and before its point, and those behind the point. -/
structure IsDigits (whole fraction : List Char) : Prop where
  ne_nil : whole ≠ []
  whole : ∀ c ∈ whole, c.isDigit = true
  fraction : ∀ c ∈ fraction, c.isDigit = true

/-- The characters of a number without its sign. -/
def pointed (whole fraction : List Char) : List Char := whole ++ if fraction = [] then [] else '.' :: fraction

/-- A minus sign, where there is one. -/
def minus (negative : Bool) : List Char := if negative then ['-'] else []

theorem IsDigits.isNumber (h : IsDigits whole fraction) : IsNumber (minus negative ++ pointed whole fraction) := by
  refine ⟨_, whole, _, rfl, ?_, h.ne_nil, h.whole, ?_⟩
  · cases negative
    · exact .inl rfl
    · exact .inr rfl
  · split
    · exact .inl rfl
    · next hne => exact .inr ⟨fraction, rfl, hne, h.fraction⟩

theorem signOf_minus (h : IsDigits whole fraction) :
    signOf (minus negative ++ pointed whole fraction) = (negative, pointed whole fraction) := by
  cases negative with
  | true => rfl
  | false =>
    obtain ⟨c, tail, rfl⟩ := List.exists_cons_of_ne_nil h.ne_nil
    have hc : c.isDigit = true := h.whole c (by simp)
    have hminus : c ≠ '-' := by rintro rfl; exact absurd hc (by decide)
    have hplus : c ≠ '+' := by rintro rfl; exact absurd hc (by decide)
    simp [minus, pointed, signOf, hminus, hplus]

theorem digitsOf_append (hdigits : ∀ c ∈ digits, c.isDigit = true) (hrest : ∀ c ∈ rest.head?, c.isDigit = false) :
    digitsOf (digits ++ rest) = (digits, rest) := by
  rw [digitsOf, takeWhile_append_stop hdigits hrest, dropWhile_append_stop hdigits hrest]

theorem digitsOf_all (hdigits : ∀ c ∈ digits, c.isDigit = true) : digitsOf digits = (digits, []) := by
  have happend := @digitsOf_append digits [] hdigits (by simp)
  rwa [List.append_nil] at happend

theorem unsigned?_pointed (h : IsDigits whole fraction) :
    unsigned? negative (pointed whole fraction) = some (assemble negative whole fraction 0) := by
  by_cases hfraction : fraction = []
  · simp [unsigned?, pointed, hfraction, digitsOf_all h.whole, fractionOf, exponent?, h.ne_nil]
  · have hwhole : digitsOf (whole ++ '.' :: fraction) = (whole, '.' :: fraction) :=
      digitsOf_append h.whole (by simp)
    simp [unsigned?, pointed, hfraction, hwhole, fractionOf, digitsOf_all h.fraction, exponent?]

theorem toLower_of_isDigit {c : Char} (h : c.isDigit = true) : c.toLower = c := by
  refine dif_neg fun hupper => ?_
  simp only [Char.isDigit, Bool.and_eq_true, decide_eq_true_eq, ge_iff_le, UInt32.le_iff_toNat_le] at h hupper
  simp at h hupper
  omega

/-- A number in digits reads as what the digits spell. -/
theorem double?_pointed (h : IsDigits whole fraction) : double? (minus negative ++ pointed whole fraction) =
    some (.ofDecimal negative (ofDigits (whole ++ fraction)) (-fraction.length)) := by
  obtain ⟨c, tail, htail⟩ := List.exists_cons_of_ne_nil h.ne_nil
  have hc : c.isDigit = true := h.whole c (by simp [htail])
  have hlower : ∃ more, (pointed whole fraction).map Char.toLower = c :: more := by
    simp [pointed, htail, toLower_of_isDigit hc]
  obtain ⟨more, hmore⟩ := hlower
  have hi : c ≠ 'i' := by rintro rfl; exact absurd hc (by decide)
  have hn : c ≠ 'n' := by rintro rfl; exact absurd hc (by decide)
  simp [double?, signOf_minus h, hmore, hi, hn, unsigned?_pointed h, assemble]

end GridFilter.Decimal
