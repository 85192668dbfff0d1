import GridFilter.Proofs.Number.Digits
import GridFilter.Proofs.Settings.Document
import GridFilter.Proofs.Text.Pieces
import GridFilter.Toml.Reader

/-! Words of TOML: what the reader takes a word for as a name, as a key, between quotes, and by itself. -/

namespace GridFilter.Toml
open Settings Lexeme

variable {text rest : List Char} {c : Char} {word : String}

/-! ### Words -/

theorem not_endsWord (h : isWordChar c = true) : endsWord c = false := by
  have hn := toNat_of_isWordChar h
  simp [endsWord, isBlank, isControl, ← Char.toNat_inj]
  omega

theorem not_isControl (h : isWordChar c = true) : isControl c = false := by
  have hn := toNat_of_isWordChar h
  simp [isControl, ← Char.toNat_inj]
  omega

theorem not_isBlank (h : isWordChar c = true) : isBlank c = false := by
  have hn := toNat_of_isWordChar h
  simp [isBlank, ← Char.toNat_inj]
  omega

theorem skipBlanks_word (h : isWordChar c = true) : skipBlanks (c :: rest) = c :: rest :=
  List.dropWhile_cons_of_neg (by simp [not_isBlank h])

theorem name_word (h : IsWord word) (hrest : ∀ c ∈ rest.head?, isWordChar c = false) :
    name (word.toList ++ rest) = some (word, rest) := by
  obtain ⟨c, chars, hword, -⟩ := h.exists_cons
  have hc : isWordChar c = true := h.chars c (by simp [hword])
  rw [name.eq_def]
  split
  · rename_i htext
    rw [hword] at htext
    cases htext
    cases hc
  · rename_i htext
    rw [hword] at htext
    cases htext
    cases hc
  · have hsame : isNameChar = isWordChar := rfl
    rw [hsame, takeWhile_append_stop h.chars hrest, dropWhile_append_stop h.chars hrest, hword]
    simp only [← hword, String.ofList_toList]

/-- A word that no point follows is a key. -/
theorem key_word (h : IsWord word) (hrest : ∀ c ∈ rest.head?, isWordChar c = false)
    (hpoint : (skipBlanks rest).head? ≠ some '.') : key (word.toList ++ rest) = some (⟨[], word⟩, skipBlanks rest) := by
  rw [key, names, name_word h hrest]
  simp only [Option.bind_eq_bind, Option.bind_some]
  split
  · rename_i hskip
    simp [hskip] at hpoint
  · rfl

/-! ### Values -/

theorem pair_eq {greatest n : Nat} (h : pair greatest text = some (n, rest)) : ∃ a b, text = a :: b :: rest := by
  rw [pair.eq_def] at h
  split at h
  · rename_i a b behind
    rcases hn : Radix.ofDigits? 10 [a, b] with - | m
    · simp [hn] at h
    · simp only [hn, Option.bind_eq_bind, Option.bind_some] at h
      split at h
      · cases h
        exact ⟨a, b, rfl⟩
      · cases h
  · cases h

variable {digits : List Char}

/-- Digits alone are no date: there is no hyphen behind the year. -/
theorem date?_digits (hdigits : ∀ c ∈ digits, c.isDigit = true) : date? digits = none := by
  rw [date?]
  rcases hcentury : pair 99 digits with - | ⟨century, rest⟩
  · rfl
  · rcases hyear : pair 99 rest with - | ⟨year, behind⟩
    · simp [hyear]
    · obtain ⟨a, b, rfl⟩ := pair_eq hcentury
      obtain ⟨d, e, rfl⟩ := pair_eq hyear
      simp only [Option.bind_eq_bind, Option.bind_some, hyear]
      split
      · have hhyphen : '-'.isDigit = true := hdigits _ (by simp)
        cases hhyphen
      · rfl

theorem time?_digits (hdigits : ∀ c ∈ digits, c.isDigit = true) : time? digits = none := by
  have hclock : clock? digits = none := by
    rw [clock?]
    rcases hhour : pair 23 digits with - | ⟨hour, rest⟩
    · rfl
    · obtain ⟨a, b, rfl⟩ := pair_eq hhour
      simp only [Option.bind_eq_bind, Option.bind_some]
      split
      · have hcolon : ':'.isDigit = true := hdigits _ (by simp)
        cases hcolon
      · rfl
  rw [time?, hclock]
  rfl

theorem isMoment_digits (hdigits : ∀ c ∈ digits, c.isDigit = true) : isMoment digits = false := by
  simp [isMoment, date?_digits hdigits, time?_digits hdigits]

theorem wordOf_append {chars : List Char} (hchars : ∀ c ∈ chars, endsWord c = false) (hdate : date? chars = none)
    (hrest : ∀ c ∈ rest.head?, endsWord c = true) : wordOf (chars ++ rest) = (chars, rest) := by
  have hspan : ∀ c ∈ chars, (!endsWord c) = true := fun c hc => by rw [hchars c hc]; rfl
  have hstop : ∀ c ∈ rest.head?, (!endsWord c) = false := fun c hc => by rw [hrest c hc]; rfl
  rw [wordOf, takeWhile_append_stop hspan hstop, dropWhile_append_stop hspan hstop, hdate]

theorem whole?_toDigits (n : Nat) : whole? (Nat.toDigits 10 n) = some (Nat.toDigits 10 n) := by
  have hdigits := @Decimal.isDigit_of_toDigits n
  have hjoined : joined? (Nat.toDigits 10 n) = some (Nat.toDigits 10 n) := by
    rw [joined?, Text.pieces_of_none]
    · simp
    · intro c hc
      exact beq_eq_false_iff_ne.mpr (ne_of_holds (hdigits c hc) rfl)
  have hread : digits? (Nat.toDigits 10 n) = some (Nat.toDigits 10 n) := by
    rw [digits?, hjoined, Option.filter_some_pos]
    simpa using hdigits
  rw [whole?, hread, Option.filter_some_pos]
  rcases Nat.eq_zero_or_pos n with rfl | hn
  · decide
  · simp [Decimal.head?_toDigits hn]

theorem signOf_digits (hdigits : ∀ c ∈ digits, c.isDigit = true) : Decimal.signOf digits = (false, digits) := by
  rw [Decimal.signOf.eq_def]
  split
  · exact absurd rfl (ne_of_holds (hdigits _ (List.mem_cons_self ..)) rfl)
  · exact absurd rfl (ne_of_holds (hdigits _ (List.mem_cons_self ..)) rfl)
  · rfl

theorem integer?_toDigits (n : Nat) : integer? (Nat.toDigits 10 n) = some (n : Int) := by
  have hdigits := @Decimal.isDigit_of_toDigits n
  have hwhole := whole?_toDigits n
  have hn := Decimal.ofDigits_toDigits n
  generalize Nat.toDigits 10 n = digits at hdigits hwhole hn
  -- No letter stands in digits, so the base is ten.
  have hletter (d : Char) (hd : d.isDigit = false) (rest : List Char) : digits ≠ '0' :: d :: rest := by
    rintro rfl
    exact ne_of_holds (hdigits d (by simp)) hd rfl
  rw [integer?.eq_def]
  split
  · exact absurd rfl (hletter _ rfl _)
  · exact absurd rfl (hletter _ rfl _)
  · exact absurd rfl (hletter _ rfl _)
  · simp [signOf_digits hdigits, hwhole, hn]

theorem ofWord?_toDigits (n : Nat) : ofWord? (Nat.toDigits 10 n) = some (.integer n) := by
  have hdigits := @Decimal.isDigit_of_toDigits n
  have hword (letters : List Char) (hletters : letters.all Char.isDigit = false) : Nat.toDigits 10 n ≠ letters := by
    rintro rfl
    rw [List.all_eq_true.mpr hdigits] at hletters
    cases hletters
  rw [ofWord?, if_neg (hword _ (by decide)), if_neg (hword _ (by decide)), isMoment_digits hdigits, integer?_toDigits]
  rfl

theorem value_eq_scalar {nesting : Nat} (hlist : text.head? ≠ some '[') (htable : text.head? ≠ some '\x7b') :
    value nesting text = scalar text := by
  cases nesting with
  | zero =>
    rw [value]
    exact if_neg (by simp [hlist, htable])
  | succ nesting =>
    rw [value.eq_def]
    dsimp only
    split
    · exact absurd rfl hlist
    · exact absurd rfl htable
    · rfl

theorem lineBody_word {chars : List Char} (hchars : ∀ c ∈ chars, isWordChar c = true) {bound : Nat}
    (hbound : chars.length < bound) : lineBody '"' bound (chars ++ '"' :: rest) = some (chars, rest) := by
  induction chars generalizing bound with
  | nil =>
    obtain ⟨bound, rfl⟩ := Nat.exists_eq_succ_of_ne_zero (by omega : bound ≠ 0)
    simp [lineBody]
  | cons c chars ih =>
    obtain ⟨hc, hchars⟩ := List.forall_mem_cons.mp hchars
    obtain ⟨bound, rfl⟩ := Nat.exists_eq_succ_of_ne_zero (by omega : bound ≠ 0)
    rw [List.length_cons, Nat.succ_lt_succ_iff] at hbound
    have hescape : ¬(c = '\\' ∧ '"' = '"') := fun h => ne_of_holds hc rfl h.1
    rw [List.cons_append, lineBody, if_neg (ne_of_holds hc rfl), not_isControl hc, if_neg hescape]
    simp [ih hchars hbound]

/-- A word in quotes is read as it is. -/
theorem quoted_word (h : IsWord word) : quoted ('"' :: (word.toList ++ '"' :: rest)) = some (word, rest) := by
  obtain ⟨c, chars, hword, -⟩ := h.exists_cons
  have hc : isWordChar c = true := h.chars c (by simp [hword])
  have hline : lineString '"' (word.toList ++ '"' :: rest) = some (word, rest) := by
    have hbound : word.toList.length < (word.toList ++ '"' :: rest).length + 1 := by
      rw [List.length_append, List.length_cons]
      omega
    rw [lineString, lineBody_word h.chars hbound]
    simp
  rw [quoted.eq_def]
  split
  · rename_i htext
    rw [hword, List.cons_append, List.cons.injEq, List.cons.injEq] at htext
    exact absurd htext.2.1 (ne_of_holds hc rfl)
  · rename_i htext
    exact absurd (List.cons.inj htext).1 (by decide)
  · rename_i htext
    rw [← (List.cons.inj htext).2]
    exact hline
  · rename_i htext
    exact absurd (List.cons.inj htext).1 (by decide)
  · rename_i hline _
    exact absurd rfl (hline _)

end GridFilter.Toml
