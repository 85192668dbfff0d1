import GridFilter.Proofs.Token.Words

/-! Numbers at the front of a text. -/

namespace GridFilter.Lexeme

variable {text rest span : List Char}

/-- A point with digits behind it, or nothing. -/
def IsFraction (point : List Char) : Prop :=
  point = [] ∨ ∃ digits, point = '.' :: digits ∧ digits ≠ [] ∧ ∀ c ∈ digits, c.isDigit = true

/-- Digits with an optional sign and an optional fraction. -/
def IsNumber (span : List Char) : Prop :=
  ∃ minus digits point, span = minus ++ (digits ++ point) ∧ (minus = [] ∨ minus = ['-']) ∧ digits ≠ [] ∧
    (∀ c ∈ digits, c.isDigit = true) ∧ IsFraction point

theorem isNameChar_of_isDigit {c : Char} (h : c.isDigit = true) : isNameChar c = true := by
  simp [isNameChar, Char.isAlphanum, h]

theorem isNameChar_of_digits {digits point : List Char} (hdigits : ∀ c ∈ digits, c.isDigit = true)
    (hpoint : IsFraction point) : ∀ c ∈ digits ++ point, isNameChar c = true := by
  intro c hc
  rcases List.mem_append.mp hc with hc | hc
  · exact isNameChar_of_isDigit (hdigits c hc)
  · rcases hpoint with rfl | ⟨more, rfl, -, hmore⟩
    · cases hc
    · rcases List.mem_cons.mp hc with rfl | hc
      · decide
      · exact isNameChar_of_isDigit (hmore c hc)

theorem not_digit_of_not_name {c : Char} (h : isNameChar c = false) : c.isDigit = false :=
  Bool.eq_false_iff.mpr fun hdigit => by simp [isNameChar_of_isDigit hdigit] at h

theorem fraction_spec (text : List Char) :
    text = (fraction text).1 ++ (fraction text).2 ∧ IsFraction (fraction text).1 := by
  unfold fraction
  split
  · next tail =>
    split
    · exact ⟨rfl, .inl rfl⟩
    · next hdigits =>
      refine ⟨?_, .inr ⟨_, rfl, hdigits, fun c => mem_takeWhile⟩⟩
      rw [List.cons_append, List.takeWhile_append_dropWhile]
  · exact ⟨rfl, .inl rfl⟩

theorem fraction_append {point : List Char} (hpoint : IsFraction point) (hrest : endsWord rest = true) :
    fraction (point ++ rest) = (point, rest) := by
  have hstop := fun c hc => endsWord_iff.mp hrest c hc
  rcases hpoint with rfl | ⟨digits, rfl, hne, hdigits⟩
  · rw [List.nil_append]
    unfold fraction
    split
    · exact absurd (hstop '.' rfl) (by decide)
    · rfl
  · have hdigit : ∀ c ∈ rest.head?, c.isDigit = false := fun c hc => not_digit_of_not_name (hstop c hc)
    obtain ⟨d, ds, rfl⟩ := List.exists_cons_of_ne_nil hne
    rw [List.cons_append]
    simp only [fraction, takeWhile_append_stop hdigits hdigit, dropWhile_append_stop hdigits hdigit]

theorem sign_spec (text : List Char) :
    text = (sign text).1 ++ (sign text).2 ∧ ((sign text).1 = [] ∨ (sign text).1 = ['-']) := by
  unfold sign
  split
  · exact ⟨rfl, .inr rfl⟩
  · exact ⟨rfl, .inl rfl⟩

theorem sign_append {minus : List Char} (hminus : minus = [] ∨ minus = ['-'])
    (hrest : ∀ c ∈ rest.head?, c.isDigit = true) : sign (minus ++ rest) = (minus, rest) := by
  rcases hminus with rfl | rfl
  · rw [List.nil_append]
    unfold sign
    split
    · exact absurd (hrest '-' rfl) (by decide)
    · rfl
  · rfl

/-- The number at the front of a text ends where the word ends. -/
theorem number?_eq_some {lexeme : Lexeme} : number? text = some (lexeme, rest) ↔
    ∃ span, lexeme = ⟨.number, .ofList span, span⟩ ∧ text = span ++ rest ∧ IsNumber span ∧ endsWord rest = true := by
  unfold number?
  constructor
  · intro h
    dsimp only at h
    split at h
    · cases h
    · next digits hdigits =>
      split at h
      · next hend =>
        cases h
        obtain ⟨htext, hminus⟩ := sign_spec text
        obtain ⟨hrest, hpoint⟩ := fraction_spec ((sign text).2.dropWhile Char.isDigit)
        refine ⟨_, rfl, ?_, ⟨_, _, _, List.append_assoc .., hminus, hdigits, fun c => mem_takeWhile, hpoint⟩, hend⟩
        rw [List.append_assoc, ← hrest, List.append_assoc, List.takeWhile_append_dropWhile, ← htext]
      · cases h
  · rintro ⟨span, rfl, rfl, ⟨minus, digits, point, rfl, hminus, hne, hdigits, hpoint⟩, hend⟩
    obtain ⟨d, ds, rfl⟩ := List.exists_cons_of_ne_nil hne
    have hhead : ∀ c ∈ (d :: ds ++ (point ++ rest)).head?, c.isDigit = true := by
      intro c hc
      obtain rfl : d = c := by simpa using hc
      exact hdigits d (by simp)
    have hstop : ∀ c ∈ (point ++ rest).head?, c.isDigit = false := by
      intro c hc
      rcases hpoint with rfl | ⟨more, rfl, -⟩
      · exact not_digit_of_not_name (endsWord_iff.mp hend c (by simpa using hc))
      · obtain rfl : '.' = c := by simpa using hc
        decide
    rw [List.append_assoc, List.append_assoc, sign_append hminus hhead]
    dsimp only
    rw [takeWhile_append_stop hdigits hstop, dropWhile_append_stop hdigits hstop, fraction_append hpoint hend]
    simp [hend]

end GridFilter.Lexeme
