import GridFilter.Proofs.Token.Lexemes

/-! Reading a lexeme, by itself or in front of a text. A lexeme is taken off the front of a text exactly if its characters
    spell it by themselves and what follows lets it end there (`first?_eq_some`); so what is read by itself is what its
    characters spell (`spelledAlone_iff`), and what is read in a text is read up to any later place that cuts no word
    (`first?_cut`). -/

namespace GridFilter.Lexeme

variable {text rest more span before gap behind : List Char} {lexeme : Lexeme} {kind : TokenKind} {symbol : String}

/-! ### Numbers, strings and placeholders -/

theorem toUpper_of_isDigit {c : Char} (h : c.isDigit = true) : c.toUpper = c := by
  refine dif_neg fun hlower => ?_
  simp only [Char.isDigit, Bool.and_eq_true, decide_eq_true_eq, ge_iff_le, UInt32.le_iff_toNat_le] at h hlower
  simp at h hlower
  omega

theorem keyword?_of_isDigit {c : Char} (h : c.isDigit = true) : keyword? (c :: text) = none := by
  have hupper := toUpper_of_isDigit h
  refine keyword?_of_head ?_ ?_
  · rw [hupper]
    rintro rfl
    exact absurd h (by decide)
  · rw [hupper]
    rintro rfl
    exact absurd h (by decide)

theorem others_of_isNumber (hspan : IsNumber span) : keyword? (span ++ rest) = none ∧
    placeholder? (span ++ rest) = none ∧ string? (span ++ rest) = none := by
  obtain ⟨minus, digits, point, rfl, rfl | rfl, hne, hdigits, -⟩ := hspan
  · obtain ⟨d, ds, rfl⟩ := List.exists_cons_of_ne_nil hne
    have hd : d.isDigit = true := hdigits d (by simp)
    have hquote : d ≠ '\'' := ne_of_name (isNameChar_of_isDigit hd) (by decide)
    have hbrace : d ≠ '\x7b' := ne_of_name (isNameChar_of_isDigit hd) (by decide)
    exact ⟨keyword?_of_isDigit hd, by simp [placeholder?, Text.braced?, hquote, hbrace], by simp [string?, hquote]⟩
  · exact ⟨keyword?_of_head (by decide) (by decide), rfl, rfl⟩

theorem first?_number (hspan : IsNumber span) (hend : endsWord rest = true) :
    first? (span ++ rest) = some (⟨.number, .ofList span, span⟩, rest) := by
  have hnumber := number?_eq_some.mpr ⟨span, rfl, rfl, hspan, hend⟩
  obtain ⟨hkeyword, hplaceholder, hstring⟩ : keyword? (span ++ rest) = none ∧ _ := others_of_isNumber hspan
  simp only [first?, hkeyword, hplaceholder, hstring, hnumber]
  rfl

theorem first?_string (hnone : placeholder? (quotes text ++ rest) = none) (hrest : rest.head? ≠ some '\'') :
    first? (quotes text ++ rest) = some (⟨.string, .ofList text, quotes text⟩, rest) := by
  have hkeyword : keyword? (quotes text ++ rest) = none := keyword?_of_head (by decide) (by decide)
  have hstring : string? (quotes text ++ rest) = some (⟨.string, .ofList text, quotes text⟩, rest) := by
    rw [quotes_append]
    simp [string?, quotedBody?_doubleQuotes hrest, quotes]
  simp [first?, hkeyword, hnone, hstring]

theorem first?_placeholder (hne : text ≠ []) (hclosing : '\x7d' ∉ text) :
    first? (Text.inBraces text ++ rest) =
      some (⟨.placeholder, .ofList (Text.trim text), Text.inBraces text⟩, rest) := by
  have hkeyword : keyword? (Text.inBraces text ++ rest) = none := keyword?_of_head (by decide) (by decide)
  simp [first?, hkeyword, placeholder?_inBraces hne hclosing]

theorem first?_quotedPlaceholder (hne : text ≠ []) (hclosing : '\x7d' ∉ text) :
    first? ('\'' :: (Text.inBraces text ++ ['\'']) ++ rest) =
      some (⟨.placeholder, .ofList (Text.trim text), '\'' :: (Text.inBraces text ++ ['\''])⟩, rest) := by
  have hkeyword : keyword? ('\'' :: (Text.inBraces text ++ ['\'']) ++ rest) = none :=
    keyword?_of_head (by decide) (by decide)
  rw [first?, hkeyword, placeholder?_quotedBraces hne hclosing]
  rfl

/-! ### Words and signs -/

theorem not_isNumber_of_upper (h : ∀ c ∈ (upper span).head?, c.isDigit = false ∧ c ≠ '-') : ¬IsNumber span := by
  rintro ⟨minus, digits, point, rfl, rfl | rfl, hne, hdigits, -⟩
  · obtain ⟨d, ds, rfl⟩ := List.exists_cons_of_ne_nil hne
    have hd := hdigits d (by simp)
    have hhead := (h d (by simp [upper, toUpper_of_isDigit hd])).1
    rw [hd] at hhead
    cases hhead
  · exact (h '-' rfl).2 rfl

/-- A word of the language is no number. -/
theorem not_isNumber_of_vocabulary (h : upper span ∈ vocabulary) : ¬IsNumber span := by
  have hheads : ∀ word ∈ vocabulary, (word.head?.all fun c => !c.isDigit && c != '-') = true := by decide
  exact not_isNumber_of_upper fun c hc => by simpa using (Option.all_eq_true ..).mp (hheads _ h) c hc

/-- A word of the language is read where it ends, if it does not begin an operator of two words. -/
theorem first?_wordToken (h : (upper span, kind, symbol) ∈ wordTokens) (hend : endsWord rest = true)
    (hunpaired : ∀ second symbol, (upper span, second, symbol) ∈ phraseTokens → ¬Follows second rest) :
    first? (span ++ rest) = some (⟨kind, symbol, span⟩, rest) := by
  have hspan : IsWord span := isWord_of_vocabulary (mem_vocabulary_of_word h)
  have hword (word : List Char) (hword : IsWord word) := word?_word hspan hend hword
  have hphrase (first second : List Char) (symbol : String) (hmem : (first, second, symbol) ∈ phraseTokens) :
      phrase? first second (span ++ rest) = none := by
    obtain ⟨hfirst, hsecond⟩ := mem_vocabulary_of_phrase hmem
    exact phrase?_word hspan hend (isWord_of_mem_vocabulary hfirst) (isWord_of_mem_vocabulary hsecond) fun heq =>
      hunpaired second symbol (heq ▸ hmem)
  rw [first?_word hspan hend (not_isNumber_of_vocabulary (mem_vocabulary_of_word h))]
  simp only [wordTokens, List.mem_cons, Prod.mk.injEq, List.not_mem_nil, or_false] at h
  rcases h with h | h | h | h | h | h | h | h
  all_goals
    obtain ⟨hupper, rfl, rfl⟩ := h
    simp [keyword?, wordOperator?, fixed, hupper, hword ['I', 'S', 'N', 'U', 'L', 'L'] (by decide),
      hword ['N', 'U', 'L', 'L'] (by decide), hword ['I', 'S'] (by decide), hword ['A', 'N', 'D'] (by decide),
      hword ['O', 'R'] (by decide), hword ['I', 'N'] (by decide),
      hword ['B', 'E', 'T', 'W', 'E', 'E', 'N'] (by decide), hword ['L', 'I', 'K', 'E'] (by decide),
      hphrase ['I', 'S'] ['N', 'O', 'T'] "!=" (by decide), hphrase ['N', 'O', 'T'] ['I', 'N'] "NOT IN" (by decide),
      hphrase ['N', 'O', 'T'] ['L', 'I', 'K', 'E'] "NOT LIKE" (by decide)]

theorem first?_phraseToken (h : (upper before, upper behind, symbol) ∈ phraseTokens) (hne : gap ≠ [])
    (hgap : ∀ c ∈ gap, isGap c = true) (hend : endsWord rest = true) :
    first? (before ++ (gap ++ (behind ++ rest))) = some (⟨.operator, symbol, before ++ gap ++ behind⟩, rest) := by
  obtain ⟨hbefore, hbehind⟩ := mem_vocabulary_of_phrase h
  have hgapEnd : endsWord (gap ++ (behind ++ rest)) = true := endsWord_gap hne hgap
  have hword (word : List Char) (hword : IsWord word) := word?_word (isWord_of_vocabulary hbefore) hgapEnd hword
  have hphrase (first second : List Char) (hfirst : IsWord first) (hsecond : IsWord second) :=
    phrase?_phrase (isWord_of_vocabulary hbefore) hne hgap (isWord_of_vocabulary hbehind) hend hfirst hsecond
  rw [first?_word (isWord_of_vocabulary hbefore) hgapEnd (not_isNumber_of_vocabulary hbefore)]
  simp only [phraseTokens, List.mem_cons, Prod.mk.injEq, List.not_mem_nil, or_false] at h
  rcases h with h | h | h
  all_goals
    obtain ⟨hfirst, hsecond, rfl⟩ := h
    simp [keyword?, wordOperator?, fixed, hfirst, hsecond, hword ['I', 'S', 'N', 'U', 'L', 'L'] (by decide),
      hword ['N', 'U', 'L', 'L'] (by decide), hword ['I', 'S'] (by decide),
      hphrase ['I', 'S'] ['N', 'O', 'T'] (by decide) (by decide),
      hphrase ['N', 'O', 'T'] ['I', 'N'] (by decide) (by decide),
      hphrase ['N', 'O', 'T'] ['L', 'I', 'K', 'E'] (by decide) (by decide)]

/-- The scanners besides those of signs find nothing where a sign starts. -/
theorem first?_signHead {c : Char} (h : c ∈ ['>', '<', '!', '=', '(', ')', ',']) :
    first? (c :: text) = (symbol? (c :: text) <|> mark? (c :: text)) := by
  have hothers : keyword? (c :: text) = none ∧ placeholder? (c :: text) = none ∧ string? (c :: text) = none ∧
      number? (c :: text) = none ∧ wordOperator? (c :: text) = none ∧ identifier? (c :: text) = none := by
    simp only [List.mem_cons, List.not_mem_nil, or_false] at h
    rcases h with rfl | rfl | rfl | rfl | rfl | rfl | rfl
    all_goals
      exact ⟨keyword?_of_head (by decide) (by decide), by simp [placeholder?, Text.braced?], rfl, rfl,
        by simp [wordOperator?, fixed, phrase?, word?, letters?], by simp [identifier?, isNameChar]⟩
  obtain ⟨hkeyword, hplaceholder, hstring, hnumber, hoperator, hidentifier⟩ := hothers
  simp [first?, hkeyword, hplaceholder, hstring, hnumber, hoperator, hidentifier]

/-- A sign is read unless it goes on to a longer one. -/
theorem first?_sign (h : (span, kind, symbol) ∈ signTokens)
    (hrest : ∀ c ∈ rest.head?, ∀ kind symbol, (span ++ [c], kind, symbol) ∉ signTokens) :
    first? (span ++ rest) = some (⟨kind, symbol, span⟩, rest) := by
  simp only [signTokens, List.mem_cons, Prod.mk.injEq, List.not_mem_nil, or_false] at h
  rcases h with h | h | h | h | h | h | h | h | h | h
  all_goals
    obtain ⟨rfl, rfl, rfl⟩ := h
    rw [List.cons_append, first?_signHead (by decide)]
  · rfl
  · rfl
  · rfl
  · rfl
  · rfl
  -- The next two are the beginnings of longer signs.
  · rcases rest with - | ⟨c, rest⟩
    · rfl
    · have hequal : c ≠ '=' := fun hc => hrest c rfl .operator ">=" (hc ▸ by decide)
      simp [symbol?, hequal]
  · rcases rest with - | ⟨c, rest⟩
    · rfl
    · have hequal : c ≠ '=' := fun hc => hrest c rfl .operator "<=" (hc ▸ by decide)
      have hgreater : c ≠ '>' := fun hc => hrest c rfl .operator "!=" (hc ▸ by decide)
      simp [symbol?, hequal, hgreater]
  · rfl
  · rfl
  · rfl

/-! ### Where a lexeme ends -/

/-- What follows lets a lexeme end. It goes on with no word, makes no operator of two words of it and no longer sign;
    and behind a string stand neither a further quote nor the end of a name in braces that the string begins. -/
structure Ends (lexeme : Lexeme) (rest : List Char) : Prop where
  uncut : ¬CutsWord lexeme.span rest
  unpaired : ∀ second symbol, (upper lexeme.span, second, symbol) ∈ phraseTokens → ¬Follows second rest
  unextended : ∀ c ∈ rest.head?, ∀ kind symbol, (lexeme.span ++ [c], kind, symbol) ∉ signTokens
  unquoted : lexeme.kind = .string → rest.head? ≠ some '\'' ∧ placeholder? (lexeme.span ++ rest) = none

/-- The quote that closes a string has no other behind it. -/
theorem head?_of_quotedBody? {body : List Char} (h : quotedBody? text = some (body, span, rest)) :
    rest.head? ≠ some '\'' := by
  induction text using quotedBody?.induct generalizing body span rest with
  | case1 => simp [quotedBody?] at h
  | case2 tail ih =>
    simp only [quotedBody?, Option.map_eq_some_iff] at h
    obtain ⟨⟨body', span', rest'⟩, hfound, heq⟩ := h
    cases heq
    exact ih hfound
  | case3 tail hsingle =>
    rw [quotedBody?] at h
    · cases h
      intro hhead
      obtain ⟨after, rfl⟩ := List.head?_eq_some_iff.mp hhead
      exact hsingle after rfl
    · exact hsingle
  | case4 c tail hdouble hquote ih =>
    rw [quotedBody?] at h
    · obtain ⟨⟨body', span', rest'⟩, hfound, heq⟩ := Option.map_eq_some_iff.mp h
      cases heq
      exact ih hfound
    · exact hdouble
    · exact hquote

/-- Of the scanners only that of strings gives a string. -/
theorem string?_of_first? (h : first? text = some (lexeme, rest)) (hkind : lexeme.kind = .string) :
    string? text = some (lexeme, rest) := by
  have hspan := (taken_first? h).alone.span_eq_quotes hkind
  have hplaceholder := placeholder?_of_string h hkind
  obtain ⟨tail, rfl⟩ : ∃ tail, text = '\'' :: tail := ⟨_, by rw [(taken_first? h).text_eq, hspan, quotes]; rfl⟩
  have hkeyword : keyword? ('\'' :: tail) = none := keyword?_of_head (by decide) (by decide)
  cases hstring : string? ('\'' :: tail) with
  | some found => rw [← h, first?, hkeyword, hplaceholder, hstring]; rfl
  | none =>
    have hnone : first? ('\'' :: tail) = none := by
      simp [first?, hkeyword, hplaceholder, hstring, number?, sign, symbol?, wordOperator?, fixed, phrase?, word?,
        letters?, identifier?, mark?, isNameChar]
    rw [hnone] at h
    cases h

/-- What follows the lexeme at the front of a text lets it end. -/
theorem ends_of_first? (h : first? text = some (lexeme, rest)) : Ends lexeme rest := by
  have htaken := taken_first? h
  obtain rfl := htaken.text_eq
  refine ⟨htaken.uncut, fun second symbol hphrase hfollows => ?_, fun c hc kind symbol hsign => ?_, fun hkind => ?_⟩
  · -- The two words would have been read as the operator.
    obtain ⟨gap, behind, after, rfl, hne, hgap, rfl, hend⟩ := hfollows
    have hlength := congrArg (fun found => found.map fun pair => pair.2.length) h
    rw [first?_phraseToken hphrase hne hgap hend] at hlength
    have hpos : 0 < gap.length := List.length_pos_iff.mpr hne
    simp at hlength
    omega
  · -- The longer sign would have been read.
    obtain ⟨tail, rfl⟩ := List.head?_eq_some_iff.mp hc
    have hlonger : ∀ entry ∈ signTokens, entry.1.length ≤ 2 := by decide
    have hnone : ∀ d ∈ tail.head?, ∀ kind symbol, (lexeme.span ++ [c] ++ [d], kind, symbol) ∉ signTokens := by
      intro d _ kind symbol hmem
      have hpos := List.length_pos_iff.mpr htaken.alone.span_ne_nil
      have hle := hlonger _ hmem
      rw [List.length_append, List.length_append, List.length_singleton, List.length_singleton] at hle
      omega
    have hfirst := first?_sign hsign hnone
    rw [List.append_assoc, List.singleton_append, h] at hfirst
    simp at hfirst
  · have hstring := string?_of_first? h hkind
    refine ⟨?_, placeholder?_of_string h hkind⟩
    unfold string? at hstring
    split at hstring
    · obtain ⟨⟨body, span, after⟩, hfound, heq⟩ := Option.map_eq_some_iff.mp hstring
      cases heq
      exact head?_of_quotedBody? hfound
    · cases hstring

/-- A lexeme is taken off the front of a text exactly if its characters stand there, spell it by themselves, and may end
    before what follows. -/
theorem first?_eq_some : first? text = some (lexeme, rest) ↔
    text = lexeme.span ++ rest ∧ SpelledAlone lexeme ∧ Ends lexeme rest := by
  constructor
  · exact fun h => ⟨(taken_first? h).text_eq, (taken_first? h).alone, ends_of_first? h⟩
  rintro ⟨rfl, halone, hends⟩
  cases halone with
  | word hword =>
    have hspan := isWord_of_vocabulary (mem_vocabulary_of_word hword)
    exact first?_wordToken hword (@endsWord_of_not_cutsWord rest _ [] hspan hends.uncut) hends.unpaired
  | @phrase before gap behind symbol hphrase hne hgap =>
    have hbehind := isWord_of_vocabulary (mem_vocabulary_of_phrase hphrase).2
    rw [List.append_assoc, List.append_assoc]
    exact first?_phraseToken hphrase hne hgap (endsWord_of_not_cutsWord hbehind hends.uncut)
  | sign hsign => exact first?_sign hsign hends.unextended
  | braces hne hbody => exact first?_placeholder hne hbody
  | quotedBraces hne hbody => exact first?_quotedPlaceholder hne hbody
  | string => exact first?_string (hends.unquoted rfl).2 (hends.unquoted rfl).1
  | number hspan =>
    have hend : endsWord rest = true := by
      obtain ⟨minus, digits, point, rfl, -, hne, hdigits, hpoint⟩ := hspan
      have hword := isNameChar_of_digits hdigits hpoint
      exact endsWord_of_not_cutsWord ⟨List.append_ne_nil_of_left_ne_nil hne _, hword⟩ hends.uncut
    exact first?_number hspan hend
  | name hspan =>
    have hend := @endsWord_of_not_cutsWord rest _ [] hspan.toIsWord hends.uncut
    refine first?_name hspan hend fun hnot => ⟨?_, ?_⟩
    · exact hends.unpaired _ "NOT IN" (hnot ▸ by decide)
    · exact hends.unpaired _ "NOT LIKE" (hnot ▸ by decide)

/-- Nothing lets every lexeme end. -/
theorem SpelledAlone.ends_nil (h : SpelledAlone lexeme) : Ends lexeme [] := by
  refine ⟨not_cutsWord_of_endsWord rfl, fun second _ _ => not_follows_of_head (by simp) second, by simp, fun hkind => ?_⟩
  cases h with
  | string hnone => exact ⟨by simp, by rwa [List.append_nil]⟩
  | word hword =>
    have hwords : ∀ entry ∈ wordTokens, entry.2.1 ≠ .string := by decide
    exact absurd hkind (hwords _ hword)
  | sign hsign =>
    have hsigns : ∀ entry ∈ signTokens, entry.2.1 ≠ .string := by decide
    exact absurd hkind (hsigns _ hsign)
  | _ => cases hkind

/-- The lexemes that their characters spell by themselves are those that are read off their characters. -/
theorem spelledAlone_iff : SpelledAlone lexeme ↔ first? lexeme.span = some (lexeme, []) := by
  rw [first?_eq_some, List.append_nil]
  exact ⟨fun h => ⟨rfl, h, h.ends_nil⟩, fun h => h.2.1⟩

/-! ### Cutting a text off -/

/-- What lets a lexeme end still does so where it is cut off in front of a character that belongs to no word. -/
theorem Ends.of_append (h : Ends lexeme (rest ++ more)) (hmore : endsWord more = true) : Ends lexeme rest := by
  have hhead : ∀ c ∈ rest.head?, c ∈ (rest ++ more).head? := by
    intro c hc
    obtain ⟨tail, rfl⟩ := List.head?_eq_some_iff.mp hc
    rfl
  refine ⟨fun hcuts => h.uncut ⟨hcuts.1, ?_⟩, fun second symbol hphrase hfollows => ?_,
    fun c hc => h.unextended c (hhead c hc), fun hkind => ⟨fun hquote => ?_, ?_⟩⟩
  · obtain ⟨c, hc, hname⟩ := hcuts.2
    exact ⟨c, hhead c hc, hname⟩
  · refine h.unpaired second symbol hphrase ?_
    obtain ⟨gap, behind, after, rfl, hne, hgap, hbehind, hend⟩ := hfollows
    refine ⟨gap, behind, after ++ more, by simp, hne, hgap, hbehind, ?_⟩
    cases after with
    | nil => exact hmore
    | cons c after => exact hend
  · exact (h.unquoted hkind).1 (hhead _ hquote)
  · -- A placeholder that is closed before the cut is closed without it as well.
    refine Option.eq_none_iff_forall_not_mem.mpr fun found hfound => ?_
    have hlonger := placeholder?_append (Option.mem_def.mp hfound) more
    rw [List.append_assoc, (h.unquoted hkind).2] at hlonger
    cases hlonger

/-- The lexeme at the front of a text is there without what stands behind a cut that no word goes over. -/
theorem first?_cut (h : first? text = some (lexeme, rest ++ more)) (hmore : endsWord more = true) :
    first? (lexeme.span ++ rest) = some (lexeme, rest) := by
  obtain ⟨-, halone, hends⟩ := first?_eq_some.mp h
  exact first?_eq_some.mpr ⟨rfl, halone, hends.of_append hmore⟩

/-! ### Going on behind a blank -/

theorem isBlank_of_isGap {c : Char} (h : isGap c = true) : Text.isBlank c = true := by
  simp only [isGap, Bool.or_eq_true, beq_iff_eq] at h
  rcases h with ((rfl | rfl) | rfl) | rfl <;> decide

theorem endsWord_of_blank (h : ∀ c ∈ text.head?, Text.isBlank c = true) : endsWord text = true := by
  refine endsWord_iff.mpr fun c hc => Bool.eq_false_iff.mpr fun hname => ?_
  have hblank := h c hc
  rw [isBlank_of_name hname] at hblank
  cases hblank

/-- A word that follows stands in front of what no name goes on with, or a gap alone does. -/
theorem Follows.of_append {word : List Char} (h : Follows word (rest ++ more)) (hword : IsWord word)
    (hmore : endsWord more = true) : (∀ c ∈ rest, isGap c = true) ∨ Follows word rest := by
  obtain ⟨gap, behind, after, htext, hne, hgap, rfl, hend⟩ := h
  have hbehind : IsWord behind := .of_upper rfl hword
  rcases List.append_eq_append_iff.mp htext with ⟨tail, rfl, -⟩ | ⟨tail, rfl, htail⟩
  · exact .inl fun c hc => hgap c (List.mem_append_left tail hc)
  refine .inr ?_
  rcases List.append_eq_append_iff.mp htail with ⟨cut, rfl, rfl⟩ | ⟨cut, rfl, rfl⟩
  · refine ⟨gap, behind, cut, rfl, hne, hgap, rfl, ?_⟩
    cases cut with
    | nil => rfl
    | cons c cut => exact hend
  · cases cut with
    | nil => exact ⟨gap, tail, [], by simp, hne, hgap, by simp, rfl⟩
    -- The word would go on over the blank.
    | cons c cut =>
      have hc := hbehind.name c (by simp)
      rw [endsWord_iff.mp hmore c rfl] at hc
      cases hc

/-- What lets a lexeme end still does so in front of a further text that starts with a blank, where no gap alone stands
    between that text and a word that begins an operator of two words, and a string is not made a placeholder. -/
theorem Ends.append (h : Ends lexeme rest) (hmore : ∀ c ∈ more.head?, Text.isBlank c = true)
    (hunpaired : (∀ c ∈ rest, isGap c = true) → ∀ second symbol, (upper lexeme.span, second, symbol) ∉ phraseTokens)
    (hunquoted : lexeme.kind = .string → placeholder? (lexeme.span ++ (rest ++ more)) = none) :
    Ends lexeme (rest ++ more) := by
  have hhead : ∀ c ∈ (rest ++ more).head?, c ∈ rest.head? ∨ Text.isBlank c = true := by
    intro c hc
    cases rest with
    | nil => exact .inr (hmore c hc)
    | cons d rest => exact .inl hc
  refine ⟨fun ⟨hlast, c, hc, hname⟩ => ?_, fun second symbol hphrase hfollows => ?_, fun c hc kind symbol hsign => ?_,
    fun hkind => ⟨fun hquote => ?_, hunquoted hkind⟩⟩
  · rcases hhead c hc with hc | hblank
    · exact h.uncut ⟨hlast, c, hc, hname⟩
    · rw [isBlank_of_name hname] at hblank
      cases hblank
  · have hsecond := isWord_of_mem_vocabulary (mem_vocabulary_of_phrase hphrase).2
    rcases hfollows.of_append hsecond (endsWord_of_blank hmore) with hgap | hfollows
    · exact hunpaired hgap second symbol hphrase
    · exact h.unpaired second symbol hphrase hfollows
  · rcases hhead c hc with hc | hblank
    · exact h.unextended c hc kind symbol hsign
    · have hsigns : ∀ entry ∈ signTokens, entry.1.all (!Text.isBlank ·) = true := by decide
      have hsolid := List.all_eq_true.mp (hsigns _ hsign) c (by simp)
      rw [hblank] at hsolid
      cases hsolid
  · rcases hhead '\'' hquote with hquote | hblank
    · exact (h.unquoted hkind).1 hquote
    · exact absurd hblank (by decide)

/-- Where no lexeme stands, no word does. -/
theorem endsWord_of_first? (h : first? text = none) : endsWord text = true := by
  refine endsWord_iff.mpr fun c hc => Bool.eq_false_iff.mpr fun hname => ?_
  obtain ⟨tail, rfl⟩ := List.head?_eq_some_iff.mp hc
  have hidentifier : identifier? (c :: tail) ≠ none := by simp [identifier?, hname]
  simp [first?, hidentifier] at h

end GridFilter.Lexeme
