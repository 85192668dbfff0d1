import GridFilter.Token.Lexer

/-! Words at the front of a text: what the scanners of words, phrases, names and numbers take, and that a text which
    does not go on with a name character has no say in it. -/

namespace GridFilter.Lexeme

variable {text rest rest' span word first second : List Char} {c : Char}

/-- A text in capitals. -/
def upper (text : List Char) : List Char := text.map Char.toUpper

/-! ### Runs of characters -/

theorem takeWhile_append_stop {p : Char → Bool} (hspan : ∀ c ∈ span, p c = true)
    (hrest : ∀ c ∈ rest.head?, p c = false) : (span ++ rest).takeWhile p = span := by
  rw [List.takeWhile_append_of_pos hspan]
  cases rest with
  | nil => simp
  | cons c rest => simp [hrest c rfl]

theorem dropWhile_append_stop {p : Char → Bool} (hspan : ∀ c ∈ span, p c = true)
    (hrest : ∀ c ∈ rest.head?, p c = false) : (span ++ rest).dropWhile p = rest := by
  rw [List.dropWhile_append_of_pos hspan]
  cases rest with
  | nil => simp
  | cons c rest => simp [hrest c rfl]

theorem mem_takeWhile {p : Char → Bool} (h : c ∈ text.takeWhile p) : p c = true := by
  induction text with
  | nil => simp at h
  | cons d text ih =>
    by_cases hd : p d = true
    · rw [List.takeWhile_cons_of_pos hd, List.mem_cons] at h
      rcases h with rfl | h
      · exact hd
      · exact ih h
    · simp [List.takeWhile_cons_of_neg hd] at h

theorem head?_dropWhile {p : Char → Bool} (h : c ∈ (text.dropWhile p).head?) : p c = false := by
  induction text with
  | nil => simp at h
  | cons d text ih =>
    by_cases hd : p d = true
    · exact ih (by rwa [List.dropWhile_cons_of_pos hd] at h)
    · rw [List.dropWhile_cons_of_neg hd, List.head?_cons, Option.mem_some_iff] at h
      simpa [← h] using hd

/-! ### Name characters -/

theorem toUpper_cases (c : Char) : c.toUpper = c ∨ isNameChar c = true := by
  by_cases h : 'a'.val ≤ c.val ∧ c.val ≤ 'z'.val
  · have hlower : c.isLower = true := Bool.and_eq_true_iff.mpr ⟨decide_eq_true h.1, decide_eq_true h.2⟩
    have halpha : c.isAlpha = (c.isUpper || c.isLower) := rfl
    exact .inr (by simp [isNameChar, Char.isAlphanum, halpha, hlower])
  · exact .inl (dif_neg h)

theorem toNat_toUpper (h : 'a'.val ≤ c.val ∧ c.val ≤ 'z'.val) : c.toUpper.toNat = c.toNat - 32 := by
  have hbounds : 97 ≤ c.toNat ∧ c.toNat ≤ 122 := by simpa [UInt32.le_iff_toNat_le] using h
  have hupper : c.toUpper.val = c.val + ('A'.val - 'a'.val) := by
    delta Char.toUpper
    rw [dif_pos h]
  simp only [Char.toNat, hupper, UInt32.toNat_add]
  simp
  omega

theorem toLower_toUpper (c : Char) : c.toUpper.toLower = c.toLower := by
  by_cases h : 'a'.val ≤ c.val ∧ c.val ≤ 'z'.val
  · have hbounds : 97 ≤ c.toNat ∧ c.toNat ≤ 122 := by simpa [UInt32.le_iff_toNat_le] using h
    have hupper := toNat_toUpper h
    have hlower : c.toUpper.val ≥ 'A'.val ∧ c.toUpper.val ≤ 'Z'.val := by
      simp [UInt32.le_iff_toNat_le, hupper]
      omega
    have hself : ¬(c.val ≥ 'A'.val ∧ c.val ≤ 'Z'.val) := by
      simp [UInt32.le_iff_toNat_le]
      omega
    have hback : c.toUpper.toLower.val = c.toUpper.val + ('a'.val - 'A'.val) := by
      delta Char.toLower
      rw [dif_pos hlower]
    have hsame : c.toLower = c := dif_neg hself
    apply Char.toNat_inj.mp
    rw [hsame]
    simp only [Char.toNat, hback, UInt32.toNat_add] at hupper ⊢
    simp [hupper]
    omega
  · have hself : c.toUpper = c := dif_neg h
    rw [hself]

/-- Words with the same capitals differ at most in the case of their letters. -/
theorem sameLetters_of_upper {name other : String} (h : upper name.toList = upper other.toList) :
    Text.sameLetters name other = true := by
  have hlower (text : List Char) : text.map Char.toLower = (upper text).map Char.toLower := by
    rw [upper, List.map_map]
    exact List.map_congr_left fun c _ => (toLower_toUpper c).symm
  rw [Text.sameLetters, Text.lower, Text.lower, hlower, h, ← hlower, beq_self_eq_true]

theorem isNameChar_of_toUpper (h : isNameChar c.toUpper = true) : isNameChar c = true := by
  rcases toUpper_cases c with hc | hc
  · rwa [hc] at h
  · exact hc

theorem isNameChar_of_upper (h : upper span = word) (hword : ∀ c ∈ word, isNameChar c = true) :
    ∀ c ∈ span, isNameChar c = true := by
  intro c hc
  exact isNameChar_of_toUpper (hword _ (h ▸ List.mem_map_of_mem hc))

theorem endsWord_iff : endsWord rest = true ↔ ∀ c ∈ rest.head?, isNameChar c = false := by
  cases rest with
  | nil => simp [endsWord]
  | cons c rest => simp [endsWord]

/-- A text divides in one way only into name characters and what does not go on with one. -/
theorem word_unique (hspan : ∀ c ∈ span, isNameChar c = true) (hrest : endsWord rest = true)
    (hword : ∀ c ∈ word, isNameChar c = true) (hrest' : endsWord rest' = true) (h : span ++ rest = word ++ rest') :
    span = word ∧ rest = rest' := by
  have htake := congrArg (List.takeWhile isNameChar) h
  rw [takeWhile_append_stop hspan (endsWord_iff.mp hrest),
    takeWhile_append_stop hword (endsWord_iff.mp hrest')] at htake
  exact ⟨htake, List.append_cancel_left (htake ▸ h)⟩

/-! ### Words in any letter case -/

theorem letters?_eq_some : letters? word text = some (span, rest) ↔ text = span ++ rest ∧ upper span = word := by
  unfold letters? upper
  constructor
  · intro h
    split at h
    · next hword =>
      cases h
      exact ⟨(List.take_append_drop _ _).symm, hword⟩
    · cases h
  · rintro ⟨rfl, hspan⟩
    have hlength : word.length = span.length := by rw [← hspan, List.length_map]
    simp [hlength, hspan]

theorem word?_eq_some :
    word? word text = some (span, rest) ↔ text = span ++ rest ∧ upper span = word ∧ endsWord rest = true := by
  unfold word?
  constructor
  · intro h
    split at h
    · next span' rest' hletters =>
      split at h
      · next hend =>
        cases h
        obtain ⟨htext, hspan⟩ := letters?_eq_some.mp hletters
        exact ⟨htext, hspan, hend⟩
      · cases h
    · cases h
  · rintro ⟨htext, hspan, hend⟩
    simp [letters?_eq_some.mpr ⟨htext, hspan⟩, hend]

theorem isGap_not_name (h : isGap c = true) : isNameChar c = false := by
  simp only [isGap, Bool.or_eq_true, beq_iff_eq] at h
  rcases h with ((rfl | rfl) | rfl) | rfl <;> decide

/-- A phrase is a first word, a gap and a second word. -/
theorem phrase?_eq_some (hsecond : ∀ c ∈ second, isNameChar c = true) (hne : second ≠ []) :
    phrase? first second text = some (span, rest) ↔ ∃ before gap behind, span = before ++ gap ++ behind ∧
      text = before ++ (gap ++ (behind ++ rest)) ∧ upper before = first ∧ gap ≠ [] ∧ (∀ c ∈ gap, isGap c = true) ∧
      upper behind = second ∧ endsWord rest = true := by
  unfold phrase?
  constructor
  · intro h
    split at h
    · cases h
    · next before rest' hletters =>
      obtain ⟨rfl, hbefore⟩ := letters?_eq_some.mp hletters
      split at h
      · cases h
      · next gap hgap =>
        split at h
        · next behind rest'' hword =>
          cases h
          obtain ⟨hrest, hbehind, hend⟩ := word?_eq_some.mp hword
          refine ⟨before, _, behind, rfl, ?_, hbefore, hgap, fun c => mem_takeWhile, hbehind, hend⟩
          rw [← hrest, List.takeWhile_append_dropWhile]
        · cases h
  · rintro ⟨before, gap, behind, rfl, rfl, hbefore, hgap, hblank, hbehind, hend⟩
    have hstop : ∀ c ∈ (behind ++ rest).head?, isGap c = false := by
      intro c hc
      cases behind with
      | nil => exact absurd hbehind.symm hne
      | cons d behind =>
        obtain rfl : d = c := by simpa using hc
        have hname := isNameChar_of_upper hbehind hsecond d (by simp)
        exact Bool.eq_false_iff.mpr fun hd => by simp [isGap_not_name hd] at hname
    have htake := takeWhile_append_stop hblank hstop
    have hdrop := dropWhile_append_stop hblank hstop
    obtain ⟨g, gs, rfl⟩ := List.exists_cons_of_ne_nil hgap
    simp only [letters?_eq_some.mpr ⟨rfl, hbefore⟩, htake, hdrop, word?_eq_some.mpr ⟨rfl, hbehind, hend⟩]

end GridFilter.Lexeme
