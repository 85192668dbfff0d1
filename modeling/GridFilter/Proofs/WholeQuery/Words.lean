import GridFilter.Proofs.Text.Pieces
import GridFilter.WholeQuery

/-! The words of a text, and those of them that stand outside of string literals. A text can be cut in two wherever no
    word goes on; what is inside a literal then depends only on whether the quotes before it are even in number. -/

namespace GridFilter.WholeQuery
open Text

variable {text rest : List Char} {c : Char} {n m : Nat}

/-! ### Words -/

/-- A character that is in no word parts the words before it from those behind it. -/
theorem words_separated (h : isWord c = false) (text rest : List Char) :
    words (text ++ c :: rest) = words text ++ words rest := by
  have hpieces : pieces (!isWord ·) (text ++ c :: rest) = pieces (!isWord ·) text ++ pieces (!isWord ·) rest :=
    pieces_separated (by simp [h]) text rest
  rw [words, hpieces, List.filter_append]
  rfl

theorem words_cons (h : isWord c = false) (rest : List Char) : words (c :: rest) = words rest :=
  words_separated h [] rest

theorem words_append_left (h : ∀ c ∈ text, isWord c = false) (rest : List Char) :
    words (text ++ rest) = words rest := by
  induction text with
  | nil => rfl
  | cons d text ih =>
    obtain ⟨hd, htext⟩ := List.forall_mem_cons.mp h
    rw [List.cons_append, words_cons hd, ih htext]

theorem words_append_right (h : ∀ c ∈ rest, isWord c = false) (text : List Char) :
    words (text ++ rest) = words text := by
  cases rest with
  | nil => rw [List.append_nil]
  | cons d rest =>
    obtain ⟨hd, hrest⟩ := List.forall_mem_cons.mp h
    have hnone : words rest = [] := by simpa [words, pieces] using words_append_left hrest []
    rw [words_separated hd, hnone, List.append_nil]

theorem words_of_isWord (hne : text ≠ []) (h : ∀ c ∈ text, isWord c = true) : words text = [text] := by
  have hpieces : pieces (!isWord ·) text = [text] := by
    induction text with
    | nil => rfl
    | cons c text ih =>
      obtain ⟨hc, htext⟩ := List.forall_mem_cons.mp h
      cases text with
      | nil => simp [pieces, hc]
      | cons d text => rw [pieces, ih (by simp) htext]; simp [hc]
  rw [words, hpieces]
  simpa using hne

/-! ### Words of a query -/

/-- The words that make a query. -/
def keywords : List (List Char) := [['J', 'O', 'I', 'N'], ['S', 'E', 'L', 'E', 'C', 'T'], ['F', 'R', 'O', 'M']]

/-- Any of these words. -/
def isQueryWord (word : List Char) : Bool := keywords.any (isKeyword · word)

theorem dropWhile_sublist {α : Type} (p : α → Bool) {first second : List α} (h : first.Sublist second) :
    (first.dropWhile p).Sublist (second.dropWhile p) := by
  induction h with
  | slnil => exact .slnil
  | cons a hsub ih =>
    by_cases ha : p a = true
    · rwa [List.dropWhile_cons_of_pos ha]
    · rw [List.dropWhile_cons_of_neg ha]
      exact (List.dropWhile_sublist p).trans (hsub.cons a)
  | cons_cons a hsub ih =>
    by_cases ha : p a = true
    · rwa [List.dropWhile_cons_of_pos ha, List.dropWhile_cons_of_pos ha]
    · rw [List.dropWhile_cons_of_neg ha, List.dropWhile_cons_of_neg ha]
      exact hsub.cons_cons a

/-- More words in between do not hide a query. -/
theorem hasQueryWords_mono {first second : List (List Char)} (h : first.Sublist second)
    (hfirst : hasQueryWords first = true) : hasQueryWords second = true := by
  have hany {p : List Char → Bool} {first second : List (List Char)} (hsub : first.Sublist second)
      (hfound : first.any p = true) : second.any p = true := by
    obtain ⟨word, hmem, hword⟩ := List.any_eq_true.mp hfound
    exact List.any_eq_true.mpr ⟨word, hsub.subset hmem, hword⟩
  unfold hasQueryWords at hfirst ⊢
  rcases Bool.or_eq_true_iff.mp hfirst with hjoin | hselect
  · exact Bool.or_eq_true_iff.mpr (.inl (hany h hjoin))
  · exact Bool.or_eq_true_iff.mpr (.inr (hany (dropWhile_sublist _ h) hselect))

/-- Only the words that make a query have a say in whether there is one. -/
theorem hasQueryWords_filter (words : List (List Char)) :
    hasQueryWords (words.filter isQueryWord) = hasQueryWords words := by
  have hany {keyword : List Char} (hkeyword : keyword ∈ keywords) (words : List (List Char)) :
      (words.filter isQueryWord).any (isKeyword keyword) = words.any (isKeyword keyword) := by
    rw [List.any_filter]
    refine congrArg words.any (funext fun word => ?_)
    cases hword : isKeyword keyword word with
    | false => simp
    | true =>
      have hquery : isQueryWord word = true := List.any_eq_true.mpr ⟨keyword, hkeyword, hword⟩
      simp [hquery]
  have hdrop : (words.filter isQueryWord).dropWhile (!isKeyword ['S', 'E', 'L', 'E', 'C', 'T'] ·) =
      (words.dropWhile (!isKeyword ['S', 'E', 'L', 'E', 'C', 'T'] ·)).filter isQueryWord := by
    induction words with
    | nil => rfl
    | cons word words ih =>
      cases hword : isKeyword ['S', 'E', 'L', 'E', 'C', 'T'] word with
      | false =>
        cases hquery : isQueryWord word with
        | false => simp [hword, hquery, ih]
        | true => simp [hword, hquery, ih]
      | true =>
        have hquery : isQueryWord word = true := List.any_eq_true.mpr ⟨_, by simp [keywords], hword⟩
        simp [hword, hquery]
  rw [hasQueryWords, hasQueryWords, hdrop, hany (by simp [keywords]), hany (by simp [keywords])]

/-! ### Literals -/

/-- A text with the characters inside string literals made quotes, behind a number of quotes. -/
def masked : Nat → List Char → List Char
  | _, [] => []
  | n, c :: rest =>
    if c = '\'' then '\'' :: masked (n + 1) rest else (if n % 2 = 0 then c else '\'') :: masked n rest

theorem masked_append (n : Nat) (text rest : List Char) :
    masked n (text ++ rest) = masked n text ++ masked (n + text.count '\'') rest := by
  induction text generalizing n with
  | nil => rfl
  | cons c text ih =>
    by_cases hc : c = '\''
    · simp [masked, hc, ih, Nat.add_assoc, Nat.add_comm 1]
    · simp [masked, hc, ih]

theorem masked_congr (h : n % 2 = m % 2) (text : List Char) : masked n text = masked m text := by
  induction text generalizing n m with
  | nil => rfl
  | cons c text ih =>
    have hnext := @ih (n + 1) (m + 1) (by omega)
    simp only [masked, h, ih h, hnext]

theorem isWord_quote : isWord '\'' = false := by decide

/-- A text with its literals covered up is cut by a character that is in no word. -/
theorem words_masked_separated (h : isWord c = false) (n : Nat) (text rest : List Char) :
    words (masked n (text ++ c :: rest)) =
      words (masked n text) ++ words (masked (n + (text ++ [c]).count '\'') rest) := by
  rw [masked_append, List.count_append, masked]
  split
  · next hc => simp [hc, words_separated isWord_quote, Nat.add_assoc]
  · next hc =>
    have hcover : isWord (if (n + text.count '\'') % 2 = 0 then c else '\'') = false := by
      split
      · exact h
      · exact isWord_quote
    simp [hc, words_separated hcover]

/-- A text with its literals covered up can be cut where a word does not go on. -/
theorem words_masked_append (n : Nat)
    (h : (∀ c ∈ text.getLast?, isWord c = false) ∨ ∀ c ∈ rest.head?, isWord c = false) :
    words (masked n (text ++ rest)) = words (masked n text) ++ words (masked (n + text.count '\'') rest) := by
  rcases h with h | h
  · rcases List.eq_nil_or_concat text with rfl | ⟨front, last, rfl⟩
    · rfl
    · have hlast : isWord last = false := h last (by simp)
      have hfront : words (masked n (front ++ [last])) = words (masked n front) := by
        rw [words_masked_separated hlast]
        exact List.append_nil _
      rw [List.concat_eq_append, hfront, List.append_assoc, List.singleton_append, words_masked_separated hlast]
  · cases rest with
    | nil =>
      rw [List.append_nil]
      exact (List.append_nil _).symm
    | cons d rest =>
      have hd : isWord d = false := h d rfl
      have hrest := words_masked_separated hd (n + text.count '\'') [] rest
      rw [words_masked_separated hd, ← List.nil_append (d :: rest), hrest]
      simp [masked, words, pieces, Nat.add_assoc]

/-- Leaving the literals out leaves the same words as covering them up. -/
theorem words_withoutLiterals (text : List Char) : words (withoutLiterals false text) = words (masked 0 text) := by
  -- Outside a literal the words go on with what stands before; inside one, the quote has ended them.
  suffices h : ∀ inside, (inside = false → ∀ front, words (front ++ withoutLiterals inside text) =
      words (front ++ masked 0 text)) ∧ (inside = true → words (withoutLiterals inside text) = words (masked 1 text)) from
    (h false).1 rfl []
  intro inside
  induction inside, text using withoutLiterals.induct with
  | case1 inside => cases inside <;> simp [withoutLiterals, masked]
  | case2 rest ih =>
    refine ⟨fun _ front => ?_, nofun⟩
    simp [withoutLiterals, masked, words_separated isWord_quote, words_cons isWord_quote, ih]
  | case3 c rest hc ih =>
    refine ⟨fun _ front => ?_, nofun⟩
    have hfront := ih.1 rfl (front ++ [c])
    rw [withoutLiterals, masked, if_neg hc]
    · simpa using hfront
    · exact hc
  | case4 rest ih =>
    refine ⟨nofun, fun _ => ?_⟩
    simp [withoutLiterals, masked, words_cons isWord_quote, ih, masked_congr (by decide : 3 % 2 = 1 % 2)]
  | case5 rest hdouble ih =>
    refine ⟨nofun, fun _ => ?_⟩
    rw [withoutLiterals, masked, if_pos rfl, words_cons isWord_quote, masked_congr (by decide : 2 % 2 = 0 % 2)]
    · exact ih.1 rfl []
    · exact hdouble
  | case6 c rest hdouble hsingle ih =>
    refine ⟨nofun, fun _ => ?_⟩
    rw [withoutLiterals, masked, if_neg hsingle, if_neg (by decide), words_cons isWord_quote]
    · exact ih.2 rfl
    · exact hdouble
    · exact hsingle

/-- No word comes to light by covering up others. -/
theorem words_masked_sublist (n : Nat) (text : List Char) : (words (masked n text)).Sublist (words text) := by
  suffices h : ∀ front, (n % 2 = 0 → (words (front ++ masked n text)).Sublist (words (front ++ text))) ∧
      (n % 2 = 1 → (words (masked n text)).Sublist (words (front ++ text))) by
    rcases Nat.mod_two_eq_zero_or_one n with hn | hn
    · exact (h []).1 hn
    · exact (h []).2 hn
  intro front
  induction text generalizing n front with
  | nil => exact ⟨fun _ => .refl _, fun _ => List.nil_sublist _⟩
  | cons c text ih =>
    by_cases hc : c = '\''
    · subst hc
      simp only [masked, if_true, words_separated isWord_quote, words_cons isWord_quote]
      refine ⟨fun hn => .append (.refl _) ((ih (n + 1) []).2 (by omega)), fun hn => ?_⟩
      exact ((ih (n + 1) []).1 (by omega)).trans (List.sublist_append_right _ _)
    · have hfront := ih n (front ++ [c])
      simp only [List.append_assoc, List.singleton_append] at hfront
      refine ⟨fun hn => ?_, fun hn => ?_⟩
      · simpa [masked, hc, hn] using hfront.1 hn
      · simpa [masked, hc, hn, words_cons isWord_quote] using hfront.2 hn

end GridFilter.WholeQuery
