import GridFilter.Proofs.Token.Tokens

/-! Strings that look like placeholders. A string in quotes whose text starts with an opening brace is read as a
    placeholder if the first closing brace behind it, wherever that is, stands in front of a quote. -/

namespace GridFilter.Lexeme

variable {text rest span body after : List Char}

/-- The first closing brace of a text stands in front of a quote. -/
def trapped (text : List Char) : Bool :=
  match text.dropWhile Text.notClosing with
  | _ :: '\'' :: _ => true
  | _ => false

theorem trapped_append (h : '\x7d' ∉ span) : trapped (span ++ rest) = trapped rest := by
  unfold trapped
  rw [List.dropWhile_append_of_pos (notClosing_of_not_mem h)]

theorem trapped_cons {c : Char} (h : c ≠ '\x7d') : trapped (c :: rest) = trapped rest := by
  have hspan : '\x7d' ∉ [c] := by simpa using h.symm
  exact trapped_append hspan

theorem trapped_closing (h : '\x7d' ∉ body) : trapped (body ++ '\x7d' :: after) = (after.head? == some '\'') := by
  rw [trapped_append h]
  cases after with
  | nil => rfl
  | cons c after =>
    by_cases hc : c = '\''
    · subst hc
      rfl
    · have hbraces : ('\x7d' :: c :: after).dropWhile Text.notClosing = '\x7d' :: c :: after := rfl
      unfold trapped
      rw [hbraces]
      split
      · next heq => simp_all
      · simp [hc]

/-- Where a text holds a closing brace, what follows a quote behind it has no say. -/
theorem trapped_quote (h : '\x7d' ∈ span) : trapped (span ++ '\'' :: rest) = trapped (span ++ ['\'']) := by
  obtain ⟨body, after, rfl, hbody⟩ := List.eq_append_cons_of_mem h
  rw [List.append_assoc, List.append_assoc, List.cons_append, List.cons_append, trapped_closing hbody,
    trapped_closing hbody]
  cases after <;> rfl

theorem trapped_iff :
    trapped text = true ↔ ∃ body after, text = body ++ '\x7d' :: '\'' :: after ∧ '\x7d' ∉ body := by
  constructor
  · intro h
    by_cases hmem : '\x7d' ∈ text
    · obtain ⟨body, after, rfl, hbody⟩ := List.eq_append_cons_of_mem hmem
      rw [trapped_closing hbody] at h
      obtain ⟨after, rfl⟩ := List.head?_eq_some_iff.mp (beq_iff_eq.mp h)
      exact ⟨body, after, rfl, hbody⟩
    · rw [← List.append_nil text, trapped_append hmem] at h
      cases h
  · rintro ⟨body, after, rfl, hbody⟩
    rw [trapped_closing hbody]
    rfl

/-- Behind a quote a placeholder is a brace, a name, and a closing brace in front of a quote. -/
theorem placeholder?_quote : placeholder? ('\'' :: text) ≠ none ↔
    ∃ inner, text = '\x7b' :: inner ∧ inner.head? ≠ some '\x7d' ∧ trapped inner = true := by
  constructor
  · intro h
    simp only [placeholder?] at h
    split at h
    · next body after hbraced =>
      obtain ⟨rfl, hne, hbody⟩ := braced?_eq_some.mp hbraced
      obtain ⟨b, bs, rfl⟩ := List.exists_cons_of_ne_nil hne
      refine ⟨b :: bs ++ '\x7d' :: '\'' :: after, by simp [Text.inBraces], ?_, trapped_iff.mpr ⟨_, after, rfl, hbody⟩⟩
      intro hhead
      simp only [List.cons_append, List.head?_cons, Option.some.injEq] at hhead
      simp [hhead] at hbody
    · exact absurd rfl h
  · rintro ⟨inner, rfl, hhead, htrapped⟩
    obtain ⟨body, after, rfl, hbody⟩ := trapped_iff.mp htrapped
    have hne : body ≠ [] := by
      rintro rfl
      exact hhead rfl
    have hbraced : Text.braced? Text.notClosing ('\x7b' :: (body ++ '\x7d' :: '\'' :: after)) =
        some (body, '\'' :: after) := braced?_eq_some.mpr ⟨by simp [Text.inBraces], hne, hbody⟩
    simp [placeholder?, hbraced]

/-- A text that starts with a brace and closes none. -/
def Opens (text : List Char) : Prop := ∃ inner, text = '\x7b' :: inner ∧ '\x7d' ∉ inner

theorem doubleQuotes_eq_cons {inner : List Char} : Value.doubleQuotes text ++ '\'' :: rest = '\x7b' :: inner ↔
    ∃ tail, text = '\x7b' :: tail ∧ inner = Value.doubleQuotes tail ++ '\'' :: rest := by
  cases text with
  | nil => simp [Value.doubleQuotes]
  | cons c text =>
    rw [doubleQuotes_cons]
    by_cases hc : c = '\''
    · simp [hc]
    · constructor
      · intro h
        simp only [hc, if_false, List.cons_append, List.nil_append, List.cons.injEq] at h
        exact ⟨text, by rw [h.1], h.2.symm⟩
      · rintro ⟨tail, heq, rfl⟩
        obtain ⟨rfl, rfl⟩ := List.cons.inj heq
        simp

/-- Whether a string in quotes is read as a placeholder rests on the string alone, or, where it opens a brace and closes
    none, on what follows alone. -/
theorem placeholder?_quotes : placeholder? (quotes text ++ rest) ≠ none ↔
    placeholder? (quotes text) ≠ none ∨ Opens text ∧ trapped rest = true := by
  rw [quotes_append, quotes]
  have hhead (text rest : List Char) : (text ++ '\'' :: rest).head? = (text ++ ['\'']).head? := by cases text <;> rfl
  have hopen {tail : List Char} (hmem : '\x7d' ∉ tail) :
      trapped (Value.doubleQuotes tail ++ '\'' :: rest) = trapped rest := by
    rw [trapped_append (mt mem_doubleQuotes.mp hmem), trapped_cons (by decide)]
  constructor
  · intro h
    obtain ⟨inner, heq, hfirst, htrapped⟩ := placeholder?_quote.mp h
    obtain ⟨tail, rfl, rfl⟩ := doubleQuotes_eq_cons.mp heq
    by_cases hmem : '\x7d' ∈ tail
    -- The brace is closed inside the string, and what follows the string has no say.
    · rw [trapped_quote (mem_doubleQuotes.mpr hmem)] at htrapped
      rw [hhead] at hfirst
      exact .inl (placeholder?_quote.mpr ⟨_, doubleQuotes_eq_cons.mpr ⟨tail, rfl, rfl⟩, hfirst, htrapped⟩)
    · exact .inr ⟨⟨tail, rfl, hmem⟩, hopen hmem ▸ htrapped⟩
  · rintro (h | ⟨⟨tail, rfl, hmem⟩, htrapped⟩)
    · obtain ⟨inner, heq, hfirst, htrapped⟩ := placeholder?_quote.mp h
      obtain ⟨tail, rfl, rfl⟩ := doubleQuotes_eq_cons.mp heq
      have hmem : '\x7d' ∈ tail := by
        refine Decidable.byContradiction fun hmem => ?_
        rw [trapped_append (mt mem_doubleQuotes.mp hmem)] at htrapped
        cases htrapped
      rw [← hhead _ rest] at hfirst
      rw [← trapped_quote (mem_doubleQuotes.mpr hmem)] at htrapped
      exact placeholder?_quote.mpr ⟨_, doubleQuotes_eq_cons.mpr ⟨tail, rfl, rfl⟩, hfirst, htrapped⟩
    · refine placeholder?_quote.mpr ⟨_, doubleQuotes_eq_cons.mpr ⟨tail, rfl, rfl⟩, fun hfirst => ?_, ?_⟩
      · rw [hhead] at hfirst
        have hin : '\x7d' ∈ Value.doubleQuotes tail ++ ['\''] := List.mem_of_mem_head? hfirst
        rcases List.mem_append.mp hin with hin | hin
        · exact hmem (mem_doubleQuotes.mp hin)
        · simp at hin
      · rw [hopen hmem]
        exact htrapped

theorem trapped_quotes_of_mem (h : '\x7d' ∈ text) : trapped (quotes text ++ rest) = trapped (quotes text) := by
  have hmem : '\x7d' ∈ '\'' :: Value.doubleQuotes text := by simp [mem_doubleQuotes, h]
  rw [quotes_append, quotes, ← List.cons_append, trapped_quote hmem, List.cons_append]

theorem trapped_quotes (h : '\x7d' ∉ text) : trapped (quotes text ++ rest) = trapped rest := by
  refine trapped_append ?_
  simp [quotes, mem_doubleQuotes, h]

/-- A string hides what stands behind it, or nothing of it. -/
theorem trapped_quotes_mono {more : List Char} (h : trapped rest = true → trapped more = true)
    (htrapped : trapped (quotes text ++ rest) = true) : trapped (quotes text ++ more) = true := by
  by_cases hmem : '\x7d' ∈ text
  · rw [trapped_quotes_of_mem hmem] at htrapped
    rw [trapped_quotes_of_mem hmem, htrapped]
  · rw [trapped_quotes hmem] at htrapped
    rw [trapped_quotes hmem, h htrapped]

theorem trapped_inBraces (h : '\x7d' ∉ text) : trapped (Text.inBraces text ++ rest) = (rest.head? == some '\'') := by
  have htext : '\x7d' ∉ '\x7b' :: text := by simp [h]
  have hbraces : Text.inBraces text ++ rest = '\x7b' :: text ++ '\x7d' :: rest := by simp [Text.inBraces]
  rw [hbraces, trapped_closing htext]

end GridFilter.Lexeme
