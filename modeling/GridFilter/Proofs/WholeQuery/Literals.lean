import GridFilter.Proofs.Token.Tokens
import GridFilter.Proofs.WholeQuery.Words

/-! What is a string to the tokens of a text is a literal to the test for whole queries, as long as the names of the
    placeholders before it hold an even number of quotes. The words that make a text a whole query then stand in tokens
    that are no strings. -/

namespace GridFilter

namespace WholeQuery
open Text Lexeme Token

variable {text rest span : List Char} {lexeme : Lexeme} {c : Char} {n : Nat}

/-! ### Characters -/

theorem isWord_of_name (h : isNameChar c = true) (hdot : c ≠ '.') : isWord c = true := by
  simp only [isNameChar, Bool.or_eq_true, beq_iff_eq, hdot, or_false] at h
  simp only [isWord, Bool.or_eq_true, beq_iff_eq]
  exact .inl h

theorem fold_of_name (h : isNameChar c = true) : fold c = c.toUpper :=
  if_neg (ne_of_name h (by decide))

theorem isWord_gap (h : isGap c = true) : isWord c = false := by
  simp only [isGap, Bool.or_eq_true, beq_iff_eq] at h
  rcases h with ((rfl | rfl) | rfl) | rfl <;> decide

/-- The code points of the blanks. -/
def blanks : List Nat := [0x20, 0x09, 0x0A, 0x0B, 0x0C, 0x0D, 0x85, 0xA0, 0x1680, 0x2000, 0x2001, 0x2002, 0x2003,
  0x2004, 0x2005, 0x2006, 0x2007, 0x2008, 0x2009, 0x200A, 0x2028, 0x2029, 0x202F, 0x205F, 0x3000]

/-- No blank is part of a word. -/
theorem isWord_blank (h : isBlank c = true) : isWord c = false := by
  have hrun (first size n : Nat) (hrun : ∀ k ≤ size, first + k ∈ blanks) (h : first ≤ n ∧ n ≤ first + size) :
      n ∈ blanks := by
    obtain ⟨k, rfl⟩ := Nat.exists_eq_add_of_le h.1
    exact hrun k (by omega)
  have hmem : c.toNat ∈ blanks := by
    have hval : c.val.toNat = c.toNat := rfl
    simp only [isBlank, hval, Bool.or_eq_true, Bool.and_eq_true, beq_iff_eq, decide_eq_true_eq] at h
    rcases h with (((((((((h | h) | h) | h) | h) | h) | h) | h) | h) | h) | h
    all_goals first
      | exact hrun 0x09 4 _ (by decide) h
      | exact hrun 0x2000 10 _ (by decide) h
      | (rw [h]; decide)
  have hblanks : ∀ code ∈ blanks, isWord (Char.ofNat code) = false := by decide +kernel
  rw [← Char.ofNat_toNat c]
  exact hblanks _ hmem

theorem words_trim (text : List Char) : words (trim text) = words text := by
  obtain ⟨before, behind, htext, hbefore, hbehind⟩ := exists_trim text
  rw [htext, words_append_left fun c hc => isWord_blank (hbefore c hc),
    words_append_right fun c hc => isWord_blank (hbehind c hc), ← htext]

/-! ### Strings and placeholders -/

theorem count_doubleQuotes (text : List Char) : (Value.doubleQuotes text).count '\'' = 2 * text.count '\'' := by
  induction text with
  | nil => rfl
  | cons c text ih =>
    rw [doubleQuotes_cons, List.count_append, ih]
    by_cases hc : c = '\''
    · simp [hc]
      omega
    · simp [hc]

theorem masked_doubleQuotes (hn : n % 2 = 1) : ∀ c ∈ masked n (Value.doubleQuotes text), c = '\'' := by
  induction text generalizing n with
  | nil => simp [Value.doubleQuotes, masked]
  | cons d text ih =>
    have hmore := @ih (n + 1 + 1) (by omega)
    by_cases hd : d = '\''
    · simpa [doubleQuotes_cons, hd, masked] using hmore
    · simpa [doubleQuotes_cons, hd, masked, hn] using ih hn

/-- Behind an even number of quotes no word of a string is left. -/
theorem words_masked_quotes (hn : n % 2 = 0) (text : List Char) : words (masked n (quotes text)) = [] := by
  have hquotes : ∀ c ∈ masked n (quotes text), c = '\'' := by
    intro c hc
    rw [quotes, masked, if_pos rfl, masked_append] at hc
    rcases List.mem_cons.mp hc with hc | hc
    · exact hc
    · rcases List.mem_append.mp hc with hc | hc
      · exact masked_doubleQuotes (by omega) c hc
      · simpa [masked] using hc
  have hwords : ∀ c ∈ masked n (quotes text), isWord c = false := fun c hc => hquotes c hc ▸ isWord_quote
  exact words_append_right hwords []

theorem count_quotes (text : List Char) : (quotes text).count '\'' % 2 = 0 := by
  simp [quotes, count_doubleQuotes]
  omega

/-- A placeholder has the words of its name, and apart from the two around it as many quotes. -/
theorem words_placeholder {body : List Char} (h : IsPlaceholder lexeme body) :
    words lexeme.span = words lexeme.text.toList ∧
      lexeme.span.count '\'' % 2 = lexeme.text.toList.count '\'' % 2 := by
  have hopen : isWord '\x7b' = false := by decide
  have hclose : isWord '\x7d' = false := by decide
  have hbraces (rest : List Char) : words (inBraces body ++ rest) = words body ++ words rest := by
    rw [inBraces, List.cons_append, words_cons hopen, List.append_assoc, List.singleton_append, words_separated hclose]
  have hquote : words ['\''] = [] := words_cons isWord_quote []
  have hcount : (inBraces body).count '\'' = body.count '\'' := by simp [inBraces]
  rw [h.text, String.toList_ofList, words_trim, count_trim (by decide)]
  rcases h.span with hspan | hspan
  · rw [hspan, hcount, ← List.append_nil (inBraces body), hbraces]
    exact ⟨List.append_nil _, rfl⟩
  · rw [hspan, words_cons isWord_quote, hbraces, hquote, List.append_nil]
    simp [hcount]
    omega

/-! ### Words of the language -/

theorem filter_words_of_upper (h : upper span ∈ vocabulary) : (words span).filter isQueryWord = [] := by
  have hvocabulary : ∀ word ∈ vocabulary, '.' ∉ word ∧ word ∉ keywords := by decide
  obtain ⟨hdot, hkeyword⟩ := hvocabulary _ h
  have hspan := isWord_of_vocabulary h
  have hall : ∀ c ∈ span, isWord c = true := by
    intro c hc
    refine isWord_of_name (hspan.name c hc) ?_
    rintro rfl
    exact hdot (List.mem_map_of_mem hc)
  have hfold : span.map fold = upper span := List.map_congr_left fun c hc => fold_of_name (hspan.name c hc)
  rw [words_of_isWord hspan.ne_nil hall]
  simp only [List.filter_eq_nil_iff, List.mem_singleton, isQueryWord, isKeyword, List.any_eq_true, beq_iff_eq]
  rintro _ rfl ⟨keyword, hmem, hequal⟩
  exact hkeyword (hfold ▸ hequal ▸ hmem)

/-- No word of the language makes a query. -/
theorem filter_words_of_isLanguage (h : IsLanguage span) : (words span).filter isQueryWord = [] := by
  cases h with
  | word hspan => exact filter_words_of_upper hspan
  | @pair before gap behind hbefore hne hgap hbehind =>
    obtain ⟨g, gs, rfl⟩ := List.exists_cons_of_ne_nil hne
    obtain ⟨hg, hgs⟩ := List.forall_mem_cons.mp hgap
    rw [List.append_assoc, List.cons_append, words_separated (isWord_gap hg),
      words_append_left (fun c hc => isWord_gap (hgs c hc)), List.filter_append, filter_words_of_upper hbefore,
      filter_words_of_upper hbehind, List.append_nil]

/-! ### Lexemes -/

/-- What is known of a lexeme that is neither a string nor a placeholder: no quote is in it, a word at its end is ended
    by what follows, and of the words that make a query it has no more than its token. -/
structure Bare (lexeme : Lexeme) (rest : List Char) : Prop where
  not_string : lexeme.kind ≠ .string
  not_placeholder : lexeme.kind ≠ .placeholder
  chars : ∀ c ∈ lexeme.span, isNameChar c = true ∨ isWord c = false ∧ c ≠ '\''
  ends : endsWord rest = true ∨ ∀ c ∈ lexeme.span, isWord c = false
  words : ((words lexeme.span).filter isQueryWord).Sublist (words lexeme.text.toList)

theorem bare_of_isLanguage (hstring : lexeme.kind ≠ .string) (hplaceholder : lexeme.kind ≠ .placeholder)
    (h : IsLanguage lexeme.span) (hend : endsWord rest = true) : Bare lexeme rest := by
  refine ⟨hstring, hplaceholder, fun c hc => ?_, .inl hend, ?_⟩
  · refine (h.phrase.chars c hc).imp_right fun hgap => ⟨isWord_gap hgap, ?_⟩
    rintro rfl
    exact absurd hgap (by decide)
  · rw [filter_words_of_isLanguage h]
    exact List.nil_sublist _

theorem bare_of_signs (hstring : lexeme.kind ≠ .string) (hplaceholder : lexeme.kind ≠ .placeholder)
    (h : lexeme.span.any (fun c => isWord c || c == '\'') = false) : Bare lexeme rest := by
  have hchars : ∀ c ∈ lexeme.span, isWord c = false ∧ c ≠ '\'' := by
    intro c hc
    simpa using List.any_eq_false.mp h c hc
  have hword : ∀ c ∈ lexeme.span, isWord c = false := fun c hc => (hchars c hc).1
  have hnone : WholeQuery.words lexeme.span = [] := words_append_right hword []
  refine ⟨hstring, hplaceholder, fun c hc => .inr (hchars c hc), .inr hword, ?_⟩
  rw [hnone]
  exact List.nil_sublist _

theorem bare_of_chars {kind : TokenKind} (hstring : kind ≠ .string) (hplaceholder : kind ≠ .placeholder)
    (h : ∀ c ∈ span, isNameChar c = true ∨ c = '-') (hend : endsWord rest = true) :
    Bare ⟨kind, .ofList span, span⟩ rest := by
  refine ⟨hstring, hplaceholder, fun c hc => (h c hc).imp_right ?_, .inl hend, ?_⟩
  · rintro rfl
    decide
  · rw [String.toList_ofList]
    exact List.filter_sublist

/-- Every lexeme is a string, a placeholder or bare. -/
theorem first?_cases (h : first? text = some (lexeme, rest)) :
    lexeme.kind = .string ∧ lexeme.span = quotes lexeme.text.toList ∨ (∃ body, IsPlaceholder lexeme body) ∨
      Bare lexeme rest := by
  obtain ⟨-, halone, huncut⟩ := taken_first? h
  cases halone with
  | @word span kind symbol hword =>
    have hwords : ∀ entry ∈ wordTokens, entry.2.1 ≠ .string ∧ entry.2.1 ≠ .placeholder := by decide
    obtain ⟨hstring, hplaceholder⟩ := hwords _ hword
    have hspan := isWord_of_vocabulary (mem_vocabulary_of_word hword)
    have hend := @endsWord_of_not_cutsWord rest span [] hspan huncut
    exact .inr (.inr (bare_of_isLanguage hstring hplaceholder (isLanguage_word hword) hend))
  | @phrase before gap behind symbol hphrase hne hgap =>
    have hbehind := isWord_of_vocabulary (mem_vocabulary_of_phrase hphrase).2
    have hend := endsWord_of_not_cutsWord hbehind huncut
    exact .inr (.inr (bare_of_isLanguage (by simp) (by simp) (isLanguage_phrase hphrase hne hgap) hend))
  | sign hsign =>
    have hsigns : ∀ entry ∈ signTokens, entry.2.1 ≠ .string ∧ entry.2.1 ≠ .placeholder ∧
        entry.1.any (fun c => isWord c || c == '\'') = false := by decide
    obtain ⟨hstring, hplaceholder, hchars⟩ := hsigns _ hsign
    exact .inr (.inr (bare_of_signs hstring hplaceholder hchars))
  | braces hne hbody => exact .inr (.inl ⟨_, rfl, rfl, hne, hbody, .inl rfl⟩)
  | quotedBraces hne hbody => exact .inr (.inl ⟨_, rfl, rfl, hne, hbody, .inr rfl⟩)
  | string => exact .inl ⟨rfl, congrArg quotes String.toList_ofList.symm⟩
  | @number span hspan =>
    obtain ⟨minus, digits, point, rfl, hminus, hne, hdigits, hpoint⟩ := hspan
    have hname := isNameChar_of_digits hdigits hpoint
    have hend := endsWord_of_not_cutsWord ⟨by simp [hne], hname⟩ huncut
    refine .inr (.inr (bare_of_chars (by simp) (by simp) (fun c hc => ?_) hend))
    rcases List.mem_append.mp hc with hc | hc
    · rcases hminus with rfl | rfl
      · cases hc
      · exact .inr (List.mem_singleton.mp hc)
    · exact .inl (hname c hc)
  | @name span hspan =>
    have hend := @endsWord_of_not_cutsWord rest span [] hspan.toIsWord huncut
    exact .inr (.inr (bare_of_chars (by simp) (by simp) (fun c hc => .inl (hspan.name c hc)) hend))

/-- What a lexeme shows behind a number of quotes: a string nothing if they are even in number, and any other lexeme no
    more words than its token; the quotes in it are even in number but for those in a placeholder. -/
theorem masked_lexeme (h : first? text = some (lexeme, rest)) (heven : lexeme.kind = .string → n % 2 = 0) :
    lexeme.span.count '\'' % 2 = (if lexeme.kind = .placeholder then lexeme.text.toList.count '\'' else 0) % 2 ∧
      ((words (masked n lexeme.span)).filter isQueryWord).Sublist
        (if lexeme.kind = .string then [] else words lexeme.text.toList) := by
  have hshown := (words_masked_sublist n lexeme.span).filter isQueryWord
  rcases first?_cases h with ⟨hkind, hspan⟩ | ⟨body, hbody⟩ | hbare
  · rw [hspan, words_masked_quotes (heven hkind)]
    simp [hkind, count_quotes]
  · obtain ⟨hwords, hcount⟩ := words_placeholder hbody
    rw [hwords] at hshown
    simpa [hbody.kind, hcount] using hshown.trans List.filter_sublist
  · have hquote : lexeme.span.count '\'' = 0 := by
      refine List.count_eq_zero.mpr fun hmem => ?_
      rcases hbare.chars _ hmem with hname | ⟨-, hne⟩
      · exact absurd hname (by decide)
      · exact hne rfl
    simpa [hbare.not_string, hbare.not_placeholder, hquote] using hshown.trans hbare.words

/-! ### Tokens -/

/-- Where a word ends, a text that has tokens goes on with no character of a word. -/
theorem isWord_head_of_lexes {position : Nat} {tokens : List Token} (h : Lexes position text tokens)
    (hend : endsWord text = true) : ∀ c ∈ text.head?, isWord c = false := by
  cases h with
  | nil => simp
  | blank hblank _ =>
    rintro c hc
    cases hc
    exact isWord_blank hblank
  | @token _ _ rest lexeme _ hfirst _ =>
    obtain ⟨htext, ⟨d, hd, -⟩, -⟩ := first?_spec hfirst
    obtain ⟨tail, htail⟩ := List.head?_eq_some_iff.mp hd
    have hhead : text.head? = some d := by rw [htext, htail]; rfl
    intro c hc
    obtain rfl : d = c := Option.some.inj (hhead.symm.trans hc)
    rcases first?_cases hfirst with ⟨-, hspan⟩ | ⟨body, hbody⟩ | hbare
    · rw [hspan] at hd
      cases hd
      exact isWord_quote
    · rcases hbody.span with hspan | hspan
      · rw [hspan] at hd
        cases hd
        decide
      · rw [hspan] at hd
        cases hd
        exact isWord_quote
    · rcases hbare.chars d (htail ▸ List.mem_cons_self) with hname | ⟨hword, -⟩
      · rw [endsWord_iff.mp hend d hhead] at hname
        cases hname
      · exact hword

/-- No word goes on from a lexeme into what follows it. -/
theorem words_masked_lexeme {position : Nat} {tokens : List Token} (h : first? text = some (lexeme, rest))
    (hrest : Lexes position rest tokens) (n : Nat) :
    words (masked n text) = words (masked n lexeme.span) ++ words (masked (n + lexeme.span.count '\'') rest) := by
  rw [(first?_spec h).1]
  have hlast {d : Char} (hd : isWord d = false) (front : List Char) :
      ∀ c ∈ (front ++ [d]).getLast?, isWord c = false := by simp [hd]
  refine words_masked_append n ?_
  rcases first?_cases h with ⟨-, hspan⟩ | ⟨body, hbody⟩ | hbare
  · exact .inl (hspan ▸ hlast isWord_quote ('\'' :: Value.doubleQuotes lexeme.text.toList))
  · rcases hbody.span with hspan | hspan
    · exact .inl (hspan ▸ hlast (by decide) ('\x7b' :: body))
    · exact .inl (hspan ▸ hlast isWord_quote ('\'' :: inBraces body))
  · rcases hbare.ends with hend | hnone
    · exact .inr (isWord_head_of_lexes hrest hend)
    · exact .inl fun c hc => hnone c (List.mem_of_getLast? hc)

/-- The words of the tokens that are no strings. -/
def wordsOutside (tokens : List Token) : List (List Char) :=
  (tokens.filter (·.kind ≠ .string)).flatMap fun token => words token.text.toList

/-- The count of quotes in the names of placeholders. -/
def placeholderQuotes (tokens : List Token) : Nat :=
  ((tokens.filter (·.kind = .placeholder)).flatMap (·.text.toList)).count '\''

theorem wordsOutside_cons (token : Token) (tokens : List Token) : wordsOutside (token :: tokens) =
    (if token.kind = .string then [] else words token.text.toList) ++ wordsOutside tokens := by
  unfold wordsOutside
  by_cases hkind : token.kind = .string <;> simp [hkind]

theorem placeholderQuotes_cons (token : Token) (tokens : List Token) : placeholderQuotes (token :: tokens) =
    (if token.kind = .placeholder then token.text.toList.count '\'' else 0) + placeholderQuotes tokens := by
  unfold placeholderQuotes
  by_cases hkind : token.kind = .placeholder <;> simp [hkind, List.count_append]

/-- Behind a number of quotes, the words that are left of a text and make a query are words of tokens that are no
    strings, if the quotes before each string are even in number. -/
theorem words_masked_of_lexes {position : Nat} {tokens : List Token} (h : Lexes position text tokens)
    (heven : ∀ (i : Nat) (hi : i < tokens.length), tokens[i].kind = .string →
      (n + placeholderQuotes (tokens.take i)) % 2 = 0) :
    ((words (masked n text)).filter isQueryWord).Sublist (wordsOutside tokens) := by
  induction h generalizing n with
  | nil => exact List.nil_sublist _
  | @blank _ c rest _ hblank _ ih =>
    have hquote : c ≠ '\'' := by
      rintro rfl
      exact absurd hblank (by decide)
    have hrest := words_masked_separated (isWord_blank hblank) n [] rest
    have hcount : n + ([] ++ [c]).count '\'' = n := by simp [hquote]
    rw [hcount] at hrest
    exact hrest ▸ ih heven
  | @token position text rest lexeme tokens hfirst hrest ih =>
    obtain ⟨hparity, hshown⟩ := masked_lexeme hfirst fun hkind => heven 0 (by simp) hkind
    rw [words_masked_lexeme hfirst hrest n, List.filter_append, wordsOutside_cons]
    refine hshown.append (ih fun i hi hkind => ?_)
    have hbefore := heven (i + 1) (by simpa using hi) hkind
    rw [List.take_succ_cons, placeholderQuotes_cons] at hbefore
    dsimp only at hbefore
    omega

/-- Words in strings make no whole query, where the names of the placeholders before each string hold an even number of
    quotes: some token that is no string has the word `JOIN`, or they have `SELECT` and later `FROM`. -/
theorem hasQueryWords_of_isWholeQuery {text : String} {tokens : List Token} (htokens : Token.ofText text = .ok tokens)
    (heven : ∀ (i : Nat) (hi : i < tokens.length), tokens[i].kind = .string →
      placeholderQuotes (tokens.take i) % 2 = 0)
    (h : isWholeQuery text = true) : hasQueryWords (wordsOutside tokens) = true := by
  have hlexes := ofChars_eq_ok.mp htokens
  have hstart : ∀ (i : Nat) (hi : i < tokens.length), tokens[i].kind = .string →
      (0 + placeholderQuotes (tokens.take i)) % 2 = 0 := by
    intro i hi hkind
    rw [Nat.zero_add]
    exact heven i hi hkind
  rw [isWholeQuery, words_withoutLiterals, ← hasQueryWords_filter] at h
  exact hasQueryWords_mono (words_masked_of_lexes hlexes hstart) h

/-- The tokens of `{'a'} = 'x JOIN y' AND join = 1`. -/
def joinTokens : List Token := [⟨.placeholder, "'a'", 0⟩, ⟨.operator, "=", 6⟩, ⟨.string, "x JOIN y", 8⟩,
  ⟨.operator, "AND", 19⟩, ⟨.identifier, "join", 23⟩, ⟨.operator, "=", 28⟩, ⟨.number, "1", 30⟩]

theorem hasQueryWords_of_isWholeQuery_join :
    Token.ofText "\x7b'a'\x7d = 'x JOIN y' AND join = 1" = .ok joinTokens ∧
      (∀ (i : Nat) (hi : i < joinTokens.length), joinTokens[i].kind = .string →
        placeholderQuotes (joinTokens.take i) % 2 = 0) ∧
      isWholeQuery "\x7b'a'\x7d = 'x JOIN y' AND join = 1" = true ∧ hasQueryWords (wordsOutside joinTokens) = true := by
  have htokens : Token.ofText "\x7b'a'\x7d = 'x JOIN y' AND join = 1" = .ok joinTokens := by rfl
  have heven : ∀ (i : Nat) (hi : i < joinTokens.length), joinTokens[i].kind = .string →
      placeholderQuotes (joinTokens.take i) % 2 = 0 := by decide
  have hwhole : isWholeQuery "\x7b'a'\x7d = 'x JOIN y' AND join = 1" = true := by rfl
  exact ⟨htokens, heven, hwhole, hasQueryWords_of_isWholeQuery htokens heven hwhole⟩

/-- The tokens of `A = {it's} AND B = 'x JOIN y'`. -/
def oddTokens : List Token := [⟨.identifier, "A", 0⟩, ⟨.operator, "=", 2⟩, ⟨.placeholder, "it's", 4⟩,
  ⟨.operator, "AND", 11⟩, ⟨.identifier, "B", 15⟩, ⟨.operator, "=", 17⟩, ⟨.string, "x JOIN y", 19⟩]

/-- The quote in a placeholder is taken for the start of a literal; the string behind it then stands outside of it. -/
theorem isWholeQuery_odd : Token.ofText "A = \x7bit's\x7d AND B = 'x JOIN y'" = .ok oddTokens ∧
    isWholeQuery "A = \x7bit's\x7d AND B = 'x JOIN y'" = true ∧ hasQueryWords (wordsOutside oddTokens) = false := by
  refine ⟨?_, ?_, ?_⟩ <;> rfl

/-! ### The content of a literal -/

/-- A string in quotes that stands outside of the literals before it leaves no word, and parts the words before it from
    those behind it. -/
theorem words_append_quotes {before : List Char} (heven : before.count '\'' % 2 = 0) (content after : List Char) :
    words (withoutLiterals false (before ++ (quotes content ++ after))) =
      words (withoutLiterals false before) ++ words (withoutLiterals false after) := by
  have hcount := count_quotes content
  have hopening : ∀ c ∈ (quotes content ++ after).head?, isWord c = false := by
    rintro c ⟨⟩
    exact isWord_quote
  have hclosing : ∀ c ∈ (quotes content).getLast?, isWord c = false := by
    intro c hc
    rw [quotes, ← List.cons_append, List.getLast?_concat] at hc
    cases hc
    exact isWord_quote
  have hafter : masked (0 + before.count '\'' + (quotes content).count '\'') after = masked 0 after :=
    masked_congr (by omega) after
  rw [words_withoutLiterals, words_withoutLiterals, words_withoutLiterals, words_masked_append 0 (.inr hopening),
    words_masked_append _ (.inl hclosing), words_masked_quotes (by omega), List.nil_append, hafter]

/-- What a string holds has no say in whether a text is a whole query, where the quotes before it are even in number. -/
theorem isWholeQuery_content {before : String} (heven : before.toList.count '\'' % 2 = 0)
    (after content other : String) : isWholeQuery (before ++ Value.quoted content ++ after) =
      isWholeQuery (before ++ Value.quoted other ++ after) := by
  have hwords (content : String) : words (withoutLiterals false (before ++ Value.quoted content ++ after).toList) =
      words (withoutLiterals false before.toList) ++ words (withoutLiterals false after.toList) := by
    rw [String.toList_append, String.toList_append, List.append_assoc, Value.quoted, String.toList_ofList]
    exact words_append_quotes heven content.toList after.toList
  rw [isWholeQuery, isWholeQuery, hwords, hwords]

/-- A string behind another one with a quote in it, in front of a literal that is not closed. -/
theorem isWholeQuery_content_unclosed : "A = 'it''s' OR B = ".toList.count '\'' % 2 = 0 ∧
    "A = 'it''s' OR B = " ++ Value.quoted "' JOIN '" ++ "'SELECT" = "A = 'it''s' OR B = ''' JOIN ''''SELECT" ∧
      isWholeQuery "A = 'it''s' OR B = ''' JOIN ''''SELECT" =
        isWholeQuery ("A = 'it''s' OR B = " ++ Value.quoted "FROM" ++ "'SELECT") := by
  have heven : "A = 'it''s' OR B = ".toList.count '\'' % 2 = 0 := by decide
  have htext : "A = 'it''s' OR B = " ++ Value.quoted "' JOIN '" ++ "'SELECT" =
      "A = 'it''s' OR B = ''' JOIN ''''SELECT" := by decide
  exact ⟨heven, htext, htext ▸ isWholeQuery_content heven "'SELECT" "' JOIN '" "FROM"⟩

end WholeQuery

end GridFilter
