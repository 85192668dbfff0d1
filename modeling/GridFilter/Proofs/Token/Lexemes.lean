import GridFilter.Proofs.Text.Pieces
import GridFilter.Proofs.Token.Names
import GridFilter.Value.Spelling

/-! What each lexeme at the front of a text is. A lexeme is spelled by its characters alone, in one of a few forms, and
    what is taken off the front of a text has such a form and cuts no word (`taken_first?`). -/

namespace GridFilter.Lexeme

variable {text rest span : List Char} {lexeme : Lexeme}

/-! ### Strings -/

theorem doubleQuotes_cons (c : Char) (text : List Char) :
    Value.doubleQuotes (c :: text) = (if c = '\'' then ['\'', '\''] else [c]) ++ Value.doubleQuotes text := rfl

theorem mem_doubleQuotes {c : Char} : c ∈ Value.doubleQuotes text ↔ c ∈ text := by
  induction text with
  | nil => simp [Value.doubleQuotes]
  | cons d text ih =>
    rw [doubleQuotes_cons, List.mem_append, ih, List.mem_cons]
    by_cases hd : d = '\''
    · simp [hd]
    · simp [hd]

/-- The characters up to the closing quote are the text with its quotes doubled. -/
theorem quotedBody?_spec {body : List Char} (h : quotedBody? text = some (body, span, rest)) :
    text = span ++ rest ∧ span = Value.doubleQuotes body ++ ['\''] := by
  induction text using quotedBody?.induct generalizing body span rest with
  | case1 => simp [quotedBody?] at h
  | case2 tail ih =>
    simp only [quotedBody?, Option.map_eq_some_iff] at h
    obtain ⟨⟨body', span', rest'⟩, hfound, heq⟩ := h
    cases heq
    obtain ⟨rfl, rfl⟩ := ih hfound
    exact ⟨rfl, rfl⟩
  | case3 tail hsingle =>
    rw [quotedBody?] at h
    · cases h
      exact ⟨rfl, rfl⟩
    · exact hsingle
  | case4 c tail hdouble hquote ih =>
    rw [quotedBody?] at h
    · obtain ⟨⟨body', span', rest'⟩, hfound, heq⟩ := Option.map_eq_some_iff.mp h
      cases heq
      obtain ⟨rfl, rfl⟩ := ih hfound
      refine ⟨rfl, ?_⟩
      rw [doubleQuotes_cons, if_neg (fun hc => hquote hc)]
      rfl
    · exact hdouble
    · exact hquote

/-- A text with its quotes doubled reads back up to a quote that no further one follows. -/
theorem quotedBody?_doubleQuotes {body : List Char} (h : rest.head? ≠ some '\'') :
    quotedBody? (Value.doubleQuotes body ++ '\'' :: rest) = some (body, Value.doubleQuotes body ++ ['\''], rest) := by
  induction body with
  | nil =>
    cases rest with
    | nil => rfl
    | cons c rest =>
      have hc : c ≠ '\'' := by simpa using h
      simp [Value.doubleQuotes, quotedBody?, hc]
  | cons c body ih =>
    rw [doubleQuotes_cons]
    by_cases hc : c = '\''
    · subst hc
      simp [quotedBody?, ih]
    · simp [quotedBody?, hc, ih]

/-- A text in quotes, those inside it doubled. -/
def quotes (text : List Char) : List Char := '\'' :: (Value.doubleQuotes text ++ ['\''])

theorem quotes_append : quotes text ++ rest = '\'' :: (Value.doubleQuotes text ++ '\'' :: rest) := by simp [quotes]

theorem string?_spec (h : string? text = some (lexeme, rest)) :
    text = lexeme.span ++ rest ∧ lexeme.kind = .string ∧ lexeme.span = quotes lexeme.text.toList := by
  unfold string? at h
  split at h
  · obtain ⟨⟨body, span, after⟩, hfound, heq⟩ := Option.map_eq_some_iff.mp h
    cases heq
    obtain ⟨rfl, rfl⟩ := quotedBody?_spec hfound
    exact ⟨rfl, rfl, by simp [quotes]⟩
  · cases h

/-! ### Placeholders -/

/-- A text in braces at the front of a text has at least one character, all of them allowed. -/
theorem braced?_spec {allowed : Char → Bool} {body after : List Char}
    (h : Text.braced? allowed text = some (body, after)) :
    text = Text.inBraces body ++ after ∧ body ≠ [] ∧ ∀ c ∈ body, allowed c = true := by
  unfold Text.braced? at h
  split at h
  · next inner =>
    split at h
    · cases h
    · next htake hdrop hne =>
      cases h
      refine ⟨?_, fun hnil => hne hnil, fun c => mem_takeWhile⟩
      rw [Text.inBraces, List.cons_append, List.append_assoc, List.singleton_append, ← hdrop,
        List.takeWhile_append_dropWhile]
    · cases h
  · cases h

theorem notClosing_of_not_mem (h : '\x7d' ∉ span) : ∀ c ∈ span, Text.notClosing c = true := by
  intro c hc
  simp only [Text.notClosing, bne_iff_ne]
  rintro rfl
  exact h hc

theorem braced?_eq_some {body after : List Char} : Text.braced? Text.notClosing text = some (body, after) ↔
    text = Text.inBraces body ++ after ∧ body ≠ [] ∧ '\x7d' ∉ body := by
  constructor
  · intro h
    obtain ⟨htext, hne, hbody⟩ := braced?_spec h
    exact ⟨htext, hne, fun hmem => absurd (hbody _ hmem) (by decide)⟩
  · rintro ⟨rfl, hne, hclosing⟩
    have hbody := notClosing_of_not_mem hclosing
    have hstop : ∀ c ∈ ('\x7d' :: after).head?, Text.notClosing c = false := by simp [Text.notClosing]
    obtain ⟨b, bs, rfl⟩ := List.exists_cons_of_ne_nil hne
    rw [Text.inBraces, List.cons_append, List.append_assoc, List.singleton_append]
    simp only [Text.braced?, takeWhile_append_stop hbody hstop, dropWhile_append_stop hbody hstop]

/-- A lexeme that is a placeholder: a name in braces, which themselves may stand in quotes. -/
structure IsPlaceholder (lexeme : Lexeme) (body : List Char) : Prop where
  kind : lexeme.kind = .placeholder
  text : lexeme.text = .ofList (Text.trim body)
  ne_nil : body ≠ []
  open_brace : '\x7d' ∉ body
  span : lexeme.span = Text.inBraces body ∨ lexeme.span = '\'' :: (Text.inBraces body ++ ['\''])

theorem IsPlaceholder.closing_not_mem {body : List Char} (h : IsPlaceholder lexeme body) :
    '\x7d' ∉ lexeme.text.toList := by
  rw [h.text, String.toList_ofList]
  exact fun hmem => h.open_brace (Text.mem_of_mem_trim hmem)

theorem placeholder?_spec (h : placeholder? text = some (lexeme, rest)) :
    text = lexeme.span ++ rest ∧ ∃ body, IsPlaceholder lexeme body := by
  unfold placeholder? at h
  split at h
  · split at h
    · next hbraced =>
      cases h
      obtain ⟨rfl, hne, hclosing⟩ := braced?_eq_some.mp hbraced
      exact ⟨by simp, _, rfl, rfl, hne, hclosing, .inr rfl⟩
    · cases h
  · split at h
    · next hbraced =>
      cases h
      obtain ⟨rfl, hne, hclosing⟩ := braced?_eq_some.mp hbraced
      exact ⟨rfl, _, rfl, rfl, hne, hclosing, .inl rfl⟩
    · cases h

theorem placeholder?_inBraces {body : List Char} (hne : body ≠ []) (hclosing : '\x7d' ∉ body) (rest : List Char) :
    placeholder? (Text.inBraces body ++ rest) =
      some (⟨.placeholder, .ofList (Text.trim body), Text.inBraces body⟩, rest) := by
  have hbraced : Text.braced? Text.notClosing (Text.inBraces body ++ rest) = some (body, rest) :=
    braced?_eq_some.mpr ⟨rfl, hne, hclosing⟩
  unfold placeholder?
  split
  · next heq => cases heq
  · simp only [hbraced]

theorem placeholder?_quotedBraces {body : List Char} (hne : body ≠ []) (hclosing : '\x7d' ∉ body) (rest : List Char) :
    placeholder? ('\'' :: (Text.inBraces body ++ ['\'']) ++ rest) =
      some (⟨.placeholder, .ofList (Text.trim body), '\'' :: (Text.inBraces body ++ ['\''])⟩, rest) := by
  have hbraced : Text.braced? Text.notClosing (Text.inBraces body ++ '\'' :: rest) = some (body, '\'' :: rest) :=
    braced?_eq_some.mpr ⟨rfl, hne, hclosing⟩
  simp [placeholder?, hbraced]

/-- A placeholder at the front of a text stays one, whatever comes behind the text. -/
theorem placeholder?_append (h : placeholder? text = some (lexeme, rest)) (more : List Char) :
    placeholder? (text ++ more) = some (lexeme, rest ++ more) := by
  obtain ⟨rfl, body, hbody⟩ := placeholder?_spec h
  obtain ⟨kind, name, span⟩ := lexeme
  obtain ⟨rfl, rfl, hne, hclosing, hspan⟩ := hbody
  rw [List.append_assoc]
  rcases hspan with rfl | rfl
  · exact placeholder?_inBraces hne hclosing (rest ++ more)
  · exact placeholder?_quotedBraces hne hclosing (rest ++ more)

/-! ### Words and signs -/

/-- Words with gaps between them. -/
structure IsPhrase (span : List Char) : Prop where
  head : ∃ c ∈ span.head?, isNameChar c = true
  chars : ∀ c ∈ span, isNameChar c = true ∨ isGap c = true

theorem IsWord.phrase (h : IsWord span) : IsPhrase span := by
  obtain ⟨c, tail, rfl, hc⟩ := h.head
  exact ⟨⟨c, rfl, hc⟩, fun d hd => .inl (h.name d hd)⟩

/-- The words of the language. -/
def vocabulary : List (List Char) := ['N', 'O', 'T'] :: reserved

/-- A word of the language, or two of them with a gap between. -/
inductive IsLanguage : List Char → Prop where
  | word {span : List Char} : upper span ∈ vocabulary → IsLanguage span
  | pair {before gap behind : List Char} : upper before ∈ vocabulary → gap ≠ [] → (∀ c ∈ gap, isGap c = true) →
      upper behind ∈ vocabulary → IsLanguage (before ++ gap ++ behind)

theorem isWord_of_mem_vocabulary {word : List Char} (h : word ∈ vocabulary) : IsWord word := by
  have hwords : ∀ word ∈ vocabulary, IsWord word := by decide
  exact hwords word h

theorem isWord_of_vocabulary (h : upper span ∈ vocabulary) : IsWord span :=
  .of_upper rfl (isWord_of_mem_vocabulary h)

theorem IsLanguage.phrase (h : IsLanguage span) : IsPhrase span := by
  cases h with
  | word hspan => exact (isWord_of_vocabulary hspan).phrase
  | @pair before gap behind hbefore _ hgap hbehind =>
    have hbefore := isWord_of_vocabulary hbefore
    have hbehind := isWord_of_vocabulary hbehind
    obtain ⟨c, tail, rfl, hc⟩ := hbefore.head
    refine ⟨⟨c, rfl, hc⟩, fun d hd => ?_⟩
    rcases List.mem_append.mp hd with hd | hd
    · rcases List.mem_append.mp hd with hd | hd
      · exact .inl (hbefore.name d hd)
      · exact .inr (hgap d hd)
    · exact .inl (hbehind.name d hd)

/-! ### A lexeme by itself -/

/-- The words that are tokens, in capitals, each with the kind and the text of its token. -/
def wordTokens : List (List Char × TokenKind × String) :=
  [(['I', 'S', 'N', 'U', 'L', 'L'], .function, "ISNULL"), (['N', 'U', 'L', 'L'], .null, "NULL"),
    (['I', 'S'], .operator, "="), (['A', 'N', 'D'], .operator, "AND"), (['O', 'R'], .operator, "OR"),
    (['I', 'N'], .operator, "IN"), (['B', 'E', 'T', 'W', 'E', 'E', 'N'], .operator, "BETWEEN"),
    (['L', 'I', 'K', 'E'], .operator, "LIKE")]

/-- The pairs of words that are operators, in capitals, each with the text of its token. -/
def phraseTokens : List (List Char × List Char × String) :=
  [(['I', 'S'], ['N', 'O', 'T'], "!="), (['N', 'O', 'T'], ['I', 'N'], "NOT IN"),
    (['N', 'O', 'T'], ['L', 'I', 'K', 'E'], "NOT LIKE")]

/-- The signs that are tokens, each with the kind and the text of its token. -/
def signTokens : List (List Char × TokenKind × String) :=
  [(['>', '='], .operator, ">="), (['<', '='], .operator, "<="), (['<', '>'], .operator, "!="),
    (['!', '='], .operator, "!="), (['='], .operator, "="), (['>'], .operator, ">"), (['<'], .operator, "<"),
    (['('], .paren, "("), ([')'], .paren, ")"), ([','], .comma, ",")]

/-- The characters of a lexeme spell its kind and its text by themselves. Names, numbers and signs are as they are
    written; words are matched in any letter case; the quotes in a string are doubled, and a string that shows a
    placeholder is none; the name of a placeholder is what stands in the braces, without blanks on either side. -/
inductive SpelledAlone : Lexeme → Prop where
  | word {span : List Char} {kind : TokenKind} {symbol : String} : (upper span, kind, symbol) ∈ wordTokens →
      SpelledAlone ⟨kind, symbol, span⟩
  | phrase {before gap behind : List Char} {symbol : String} : (upper before, upper behind, symbol) ∈ phraseTokens →
      gap ≠ [] → (∀ c ∈ gap, isGap c = true) → SpelledAlone ⟨.operator, symbol, before ++ gap ++ behind⟩
  | sign {span : List Char} {kind : TokenKind} {symbol : String} : (span, kind, symbol) ∈ signTokens →
      SpelledAlone ⟨kind, symbol, span⟩
  | braces {body : List Char} : body ≠ [] → '\x7d' ∉ body →
      SpelledAlone ⟨.placeholder, .ofList (Text.trim body), Text.inBraces body⟩
  | quotedBraces {body : List Char} : body ≠ [] → '\x7d' ∉ body →
      SpelledAlone ⟨.placeholder, .ofList (Text.trim body), '\'' :: (Text.inBraces body ++ ['\''])⟩
  | string {text : List Char} : placeholder? (quotes text) = none → SpelledAlone ⟨.string, .ofList text, quotes text⟩
  | number {span : List Char} : IsNumber span → SpelledAlone ⟨.number, .ofList span, span⟩
  | name {span : List Char} : IsName span → SpelledAlone ⟨.identifier, .ofList span, span⟩

theorem mem_vocabulary_of_word {word : List Char} {kind : TokenKind} {symbol : String}
    (h : (word, kind, symbol) ∈ wordTokens) : word ∈ vocabulary := by
  have hwords : ∀ entry ∈ wordTokens, entry.1 ∈ vocabulary := by decide
  exact hwords _ h

theorem mem_vocabulary_of_phrase {first second : List Char} {symbol : String}
    (h : (first, second, symbol) ∈ phraseTokens) : first ∈ vocabulary ∧ second ∈ vocabulary := by
  have hphrases : ∀ entry ∈ phraseTokens, entry.1 ∈ vocabulary ∧ entry.2.1 ∈ vocabulary := by decide
  exact hphrases _ h

theorem isLanguage_word {kind : TokenKind} {symbol : String} (h : (upper span, kind, symbol) ∈ wordTokens) :
    IsLanguage span :=
  .word (mem_vocabulary_of_word h)

theorem isLanguage_phrase {before gap behind : List Char} {symbol : String}
    (h : (upper before, upper behind, symbol) ∈ phraseTokens) (hne : gap ≠ []) (hgap : ∀ c ∈ gap, isGap c = true) :
    IsLanguage (before ++ gap ++ behind) :=
  .pair (mem_vocabulary_of_phrase h).1 hne hgap (mem_vocabulary_of_phrase h).2

/-! ### Where a lexeme ends -/

/-- A word goes on from a text into the text behind it. -/
def CutsWord (before after : List Char) : Prop :=
  (∃ c ∈ before.getLast?, isNameChar c = true) ∧ ∃ c ∈ after.head?, isNameChar c = true

theorem not_cutsWord_of_endsWord (h : endsWord rest = true) : ¬CutsWord span rest := by
  rintro ⟨-, c, hc, hname⟩
  rw [endsWord_iff.mp h c hc] at hname
  cases hname

theorem not_cutsWord_concat {c : Char} (h : isNameChar c = false) (front : List Char) :
    ¬CutsWord (front ++ [c]) rest := by
  rintro ⟨⟨d, hd, hname⟩, -⟩
  obtain rfl : c = d := by simpa using hd
  rw [h] at hname
  cases hname

theorem not_cutsWord_sign {kind : TokenKind} {symbol : String} (h : (span, kind, symbol) ∈ signTokens) :
    ¬CutsWord span rest := by
  have hsigns : ∀ entry ∈ signTokens, entry.1.all (!isNameChar ·) = true := by decide
  rintro ⟨⟨c, hc, hname⟩, -⟩
  have hsign := List.all_eq_true.mp (hsigns _ h) c (List.mem_of_getLast? hc)
  simp [hname] at hsign

/-- Behind a word that is not cut, the word ends. -/
theorem endsWord_of_not_cutsWord {front : List Char} (hspan : IsWord span) (h : ¬CutsWord (front ++ span) rest) :
    endsWord rest = true := by
  refine endsWord_iff.mpr fun c hc => Bool.eq_false_iff.mpr fun hname => h ⟨?_, c, hc, hname⟩
  refine ⟨span.getLast hspan.ne_nil, ?_, hspan.name _ (List.getLast_mem _)⟩
  rw [List.getLast?_append, List.getLast?_eq_some_getLast hspan.ne_nil]
  rfl

/-! ### What the scanners take -/

/-- A lexeme is taken off the front of a text: its characters stand there, spell it by themselves and cut no word. -/
structure Taken (lexeme : Lexeme) (text rest : List Char) : Prop where
  text_eq : text = lexeme.span ++ rest
  alone : SpelledAlone lexeme
  uncut : ¬CutsWord lexeme.span rest

theorem taken_word? {word : List Char} {kind : TokenKind} {symbol : String}
    (h : fixed kind symbol (word? word text) = some (lexeme, rest)) (hword : (word, kind, symbol) ∈ wordTokens) :
    Taken lexeme text rest := by
  obtain ⟨⟨span, after⟩, hfound, heq⟩ := Option.map_eq_some_iff.mp h
  cases heq
  obtain ⟨htext, rfl, hend⟩ := word?_eq_some.mp hfound
  exact ⟨htext, .word hword, not_cutsWord_of_endsWord hend⟩

theorem taken_phrase? {first second : List Char} {symbol : String}
    (h : fixed .operator symbol (phrase? first second text) = some (lexeme, rest))
    (hphrase : (first, second, symbol) ∈ phraseTokens) : Taken lexeme text rest := by
  have hsecond : IsWord second := isWord_of_mem_vocabulary (mem_vocabulary_of_phrase hphrase).2
  obtain ⟨⟨span, after⟩, hfound, heq⟩ := Option.map_eq_some_iff.mp h
  cases heq
  obtain ⟨before, gap, behind, rfl, rfl, rfl, hne, hgap, rfl, hend⟩ :=
    (phrase?_eq_some hsecond.name hsecond.ne_nil).mp hfound
  exact ⟨by simp, .phrase hphrase hne hgap, not_cutsWord_of_endsWord hend⟩

theorem taken_keyword? (h : keyword? text = some (lexeme, rest)) : Taken lexeme text rest := by
  rcases orElse_eq_some.mp h with h | ⟨-, h⟩
  · exact taken_word? h (by decide)
  · exact taken_word? h (by decide)

theorem taken_wordOperator? (h : wordOperator? text = some (lexeme, rest)) : Taken lexeme text rest := by
  unfold wordOperator? at h
  rcases orElse_eq_some.mp h with h | ⟨-, h⟩
  · exact taken_phrase? h (by decide)
  rcases orElse_eq_some.mp h with h | ⟨-, h⟩
  · exact taken_word? h (by decide)
  rcases orElse_eq_some.mp h with h | ⟨-, h⟩
  · exact taken_phrase? h (by decide)
  rcases orElse_eq_some.mp h with h | ⟨-, h⟩
  · exact taken_phrase? h (by decide)
  rcases orElse_eq_some.mp h with h | ⟨-, h⟩
  · exact taken_word? h (by decide)
  rcases orElse_eq_some.mp h with h | ⟨-, h⟩
  · exact taken_word? h (by decide)
  rcases orElse_eq_some.mp h with h | ⟨-, h⟩
  · exact taken_word? h (by decide)
  rcases orElse_eq_some.mp h with h | ⟨-, h⟩
  · exact taken_word? h (by decide)
  · exact taken_word? h (by decide)

theorem taken_sign {kind : TokenKind} {symbol : String} (h : (span, kind, symbol) ∈ signTokens) :
    Taken ⟨kind, symbol, span⟩ (span ++ rest) rest :=
  ⟨rfl, .sign h, not_cutsWord_sign h⟩

theorem taken_symbol? (h : symbol? text = some (lexeme, rest)) : Taken lexeme text rest := by
  unfold symbol? at h
  split at h <;> cases h <;> exact taken_sign (by decide)

theorem taken_mark? (h : mark? text = some (lexeme, rest)) : Taken lexeme text rest := by
  unfold mark? at h
  split at h <;> cases h <;> exact taken_sign (by decide)

theorem taken_placeholder? (h : placeholder? text = some (lexeme, rest)) : Taken lexeme text rest := by
  obtain ⟨htext, body, hbody⟩ := placeholder?_spec h
  obtain ⟨kind, name, span⟩ := lexeme
  obtain ⟨rfl, rfl, hne, hclosing, hspan⟩ := hbody
  rcases hspan with rfl | rfl
  · exact ⟨htext, .braces hne hclosing, not_cutsWord_concat (by decide) ('\x7b' :: body)⟩
  · exact ⟨htext, .quotedBraces hne hclosing, not_cutsWord_concat (by decide) ('\'' :: Text.inBraces body)⟩

theorem taken_number? (h : number? text = some (lexeme, rest)) : Taken lexeme text rest := by
  obtain ⟨span, rfl, htext, hspan, hend⟩ := number?_eq_some.mp h
  exact ⟨htext, .number hspan, not_cutsWord_of_endsWord hend⟩

theorem taken_string? (h : string? text = some (lexeme, rest)) (hnone : placeholder? text = none) :
    Taken lexeme text rest := by
  obtain ⟨htext, hkind, hspan⟩ := string?_spec h
  obtain ⟨kind, body, span⟩ := lexeme
  obtain rfl : kind = .string := hkind
  obtain rfl : span = quotes body.toList := hspan
  have halone : placeholder? (quotes body.toList) = none := by
    refine Option.eq_none_iff_forall_not_mem.mpr fun ⟨lexeme, after⟩ hfound => ?_
    rw [htext, placeholder?_append hfound] at hnone
    cases hnone
  refine ⟨htext, ?_, not_cutsWord_concat (by decide) ('\'' :: Value.doubleQuotes body.toList)⟩
  simpa using SpelledAlone.string halone

/-- A word that no other scanner takes is a name. -/
theorem isName_of_none (hspan : IsWord span) (hend : endsWord rest = true) (hkeyword : keyword? (span ++ rest) = none)
    (hnumber : number? (span ++ rest) = none) (hoperator : wordOperator? (span ++ rest) = none) : IsName span := by
  refine ⟨hspan, fun h => ?_, fun h => ?_⟩
  · rw [number?_eq_some.mpr ⟨span, rfl, rfl, h, hend⟩] at hnumber
    cases hnumber
  · have htaken : word? (upper span) (span ++ rest) = some (span, rest) := word?_eq_some.mpr ⟨rfl, rfl, hend⟩
    simp only [keyword?, orElse_eq_none, fixed, Option.map_eq_none_iff] at hkeyword
    simp only [wordOperator?, orElse_eq_none, fixed, Option.map_eq_none_iff] at hoperator
    simp only [reserved, List.mem_cons, List.not_mem_nil, or_false] at h
    rcases h with h | h | h | h | h | h | h | h <;> rw [h] at htaken <;> simp [htaken] at hkeyword hoperator

theorem taken_identifier? (h : identifier? text = some (lexeme, rest)) (hkeyword : keyword? text = none)
    (hnumber : number? text = none) (hoperator : wordOperator? text = none) : Taken lexeme text rest := by
  unfold identifier? at h
  split at h
  · cases h
  · next hne =>
    cases h
    have htext : text = text.takeWhile isNameChar ++ text.dropWhile isNameChar := List.takeWhile_append_dropWhile.symm
    have hspan : IsWord (text.takeWhile isNameChar) := ⟨hne, fun c => mem_takeWhile⟩
    have hend : endsWord (text.dropWhile isNameChar) = true := endsWord_iff.mpr fun c => head?_dropWhile
    rw [htext] at hkeyword hnumber hoperator
    exact ⟨htext, .name (isName_of_none hspan hend hkeyword hnumber hoperator), not_cutsWord_of_endsWord hend⟩

/-- The lexeme at the front of a text is taken off it. -/
theorem taken_first? (h : first? text = some (lexeme, rest)) : Taken lexeme text rest := by
  unfold first? at h
  rcases orElse_eq_some.mp h with h | ⟨hkeyword, h⟩
  · exact taken_keyword? h
  rcases orElse_eq_some.mp h with h | ⟨hplaceholder, h⟩
  · exact taken_placeholder? h
  rcases orElse_eq_some.mp h with h | ⟨-, h⟩
  · exact taken_string? h hplaceholder
  rcases orElse_eq_some.mp h with h | ⟨hnumber, h⟩
  · exact taken_number? h
  rcases orElse_eq_some.mp h with h | ⟨-, h⟩
  · exact taken_symbol? h
  rcases orElse_eq_some.mp h with h | ⟨hoperator, h⟩
  · exact taken_wordOperator? h
  rcases orElse_eq_some.mp h with h | ⟨-, h⟩
  · exact taken_identifier? h hkeyword hnumber hoperator
  · exact taken_mark? h

/-! ### The characters of a lexeme -/

/-- How the characters of a lexeme spell its text. -/
def Spelled (lexeme : Lexeme) : Prop :=
  match lexeme.kind with
  | .identifier => lexeme.text = .ofList lexeme.span ∧ IsName lexeme.span
  | .number => lexeme.text = .ofList lexeme.span ∧ IsNumber lexeme.span
  | .string => lexeme.span = quotes lexeme.text.toList
  | .placeholder => ∃ body, IsPlaceholder lexeme body
  | .operator | .function | .null | .paren | .comma => '\x7d' ∉ lexeme.span

theorem name_range {c : Char} (h : isNameChar c = true) : 0x2E ≤ c.toNat ∧ c.toNat ≤ 0x7A := by
  have hupper : c.isUpper = decide (c.val ≥ 'A'.val ∧ c.val ≤ 'Z'.val) := rfl
  have hlower : c.isLower = (decide (c.val ≥ 'a'.val) && decide (c.val ≤ 'z'.val)) := rfl
  have halpha : c.isAlpha = (c.isUpper || c.isLower) := rfl
  simp only [isNameChar, Char.isAlphanum, halpha, hupper, hlower, Char.isDigit, Bool.or_eq_true, Bool.and_eq_true,
    decide_eq_true_eq, beq_iff_eq, ge_iff_le, UInt32.le_iff_toNat_le] at h
  rcases h with (((h | h) | h) | rfl) | rfl
  · simp at h; omega
  · simp at h; omega
  · simp at h; omega
  · decide
  · decide

theorem isBlank_of_name {c : Char} (h : isNameChar c = true) : Text.isBlank c = false := by
  have hrange := name_range h
  have hval : c.val.toNat = c.toNat := rfl
  simp only [Text.isBlank, hval, Bool.or_eq_false_iff, Bool.and_eq_false_iff, beq_eq_false_iff_ne,
    decide_eq_false_iff_not]
  omega

theorem IsPhrase.isBlank_head (h : IsPhrase span) : ∃ c ∈ span.head?, Text.isBlank c = false := by
  obtain ⟨c, hc, hname⟩ := h.head
  exact ⟨c, hc, isBlank_of_name hname⟩

theorem IsPhrase.closing_not_mem (h : IsPhrase span) : '\x7d' ∉ span := by
  intro hmem
  rcases h.chars _ hmem with hc | hc
  · exact absurd hc (by decide)
  · exact absurd hc (by decide)

theorem IsNumber.isBlank_head (h : IsNumber span) : ∃ c ∈ span.head?, Text.isBlank c = false := by
  obtain ⟨minus, digits, point, rfl, rfl | rfl, hne, hdigits, -⟩ := h
  · obtain ⟨d, ds, rfl⟩ := List.exists_cons_of_ne_nil hne
    exact ⟨d, rfl, isBlank_of_name (isNameChar_of_isDigit (hdigits d (by simp)))⟩
  · exact ⟨'-', rfl, by decide⟩

theorem closing_not_mem_word (h : ∀ c ∈ span, isNameChar c = true) : '\x7d' ∉ span :=
  fun hmem => absurd (h _ hmem) (by decide)

theorem IsNumber.closing_not_mem (h : IsNumber span) : '\x7d' ∉ span := by
  obtain ⟨minus, digits, point, rfl, rfl | rfl, -, hdigits, hpoint⟩ := h
  · rw [List.nil_append]
    exact closing_not_mem_word (isNameChar_of_digits hdigits hpoint)
  · intro hmem
    rcases List.mem_append.mp hmem with hmem | hmem
    · simp at hmem
    · exact closing_not_mem_word (isNameChar_of_digits hdigits hpoint) hmem

/-- The characters of a lexeme start with no blank. -/
theorem SpelledAlone.isBlank_head (h : SpelledAlone lexeme) : ∃ c ∈ lexeme.span.head?, Text.isBlank c = false := by
  cases h with
  | word hword => exact (isLanguage_word hword).phrase.isBlank_head
  | phrase hphrase hne hgap => exact (isLanguage_phrase hphrase hne hgap).phrase.isBlank_head
  | sign hsign =>
    have hsigns : ∀ entry ∈ signTokens, entry.1.head?.any (!Text.isBlank ·) = true := by decide
    obtain ⟨c, hc, hblank⟩ := (Option.any_eq_true ..).mp (hsigns _ hsign)
    exact ⟨c, hc, by simpa using hblank⟩
  | braces => exact ⟨'\x7b', rfl, by decide⟩
  | quotedBraces => exact ⟨'\'', rfl, by decide⟩
  | string => exact ⟨'\'', rfl, by decide⟩
  | number hspan => exact hspan.isBlank_head
  | name hspan => exact hspan.phrase.isBlank_head

theorem SpelledAlone.span_ne_nil (h : SpelledAlone lexeme) : lexeme.span ≠ [] := by
  obtain ⟨c, hc, -⟩ := h.isBlank_head
  rintro hnil
  simp [hnil] at hc

/-- The kinds of words and signs. -/
def plainKinds : List TokenKind := [.operator, .function, .null, .paren, .comma]

theorem spelled_of_plain (hkind : lexeme.kind ∈ plainKinds) (h : '\x7d' ∉ lexeme.span) : lexeme.Spelled := by
  simp only [plainKinds, List.mem_cons, List.not_mem_nil, or_false] at hkind
  rcases hkind with hkind | hkind | hkind | hkind | hkind <;> simpa only [Spelled, hkind] using h

theorem SpelledAlone.spelled (h : SpelledAlone lexeme) : lexeme.Spelled := by
  cases h with
  | word hword =>
    have hwords : ∀ entry ∈ wordTokens, entry.2.1 ∈ plainKinds := by decide
    exact spelled_of_plain (hwords _ hword) (isLanguage_word hword).phrase.closing_not_mem
  | phrase hphrase hne hgap => exact (isLanguage_phrase hphrase hne hgap).phrase.closing_not_mem
  | sign hsign =>
    have hsigns : ∀ entry ∈ signTokens, entry.2.1 ∈ plainKinds ∧ '\x7d' ∉ entry.1 := by decide
    exact spelled_of_plain (hsigns _ hsign).1 (hsigns _ hsign).2
  | braces hne hbody => exact ⟨_, rfl, rfl, hne, hbody, .inl rfl⟩
  | quotedBraces hne hbody => exact ⟨_, rfl, rfl, hne, hbody, .inr rfl⟩
  | string => exact congrArg quotes String.toList_ofList.symm
  | number hspan => exact ⟨rfl, hspan⟩
  | name hspan => exact ⟨rfl, hspan⟩

/-- The characters of a lexeme are those in front of the text; they start with no blank and spell the lexeme. -/
theorem first?_spec (h : first? text = some (lexeme, rest)) :
    text = lexeme.span ++ rest ∧ (∃ c ∈ lexeme.span.head?, Text.isBlank c = false) ∧ lexeme.Spelled :=
  ⟨(taken_first? h).text_eq, (taken_first? h).alone.isBlank_head, (taken_first? h).alone.spelled⟩

theorem SpelledAlone.span_eq_quotes (h : SpelledAlone lexeme) (hkind : lexeme.kind = .string) :
    lexeme.span = quotes lexeme.text.toList := by
  have hspelled := h.spelled
  rwa [Spelled, hkind] at hspelled

/-- Where a quote stands, a placeholder is taken before a string is. -/
theorem first?_of_placeholder? {found : Lexeme × List Char} (h : placeholder? (quotes span ++ rest) = some found) :
    first? (quotes span ++ rest) = some found := by
  have hkeyword : keyword? (quotes span ++ rest) = none := keyword?_of_head (by decide) (by decide)
  simp [first?, hkeyword, h]

/-- A string in quotes is no placeholder. -/
theorem placeholder?_of_string (h : first? text = some (lexeme, rest)) (hkind : lexeme.kind = .string) :
    placeholder? text = none := by
  have htaken := taken_first? h
  refine Option.eq_none_iff_forall_not_mem.mpr fun found hfound => ?_
  rw [htaken.text_eq, htaken.alone.span_eq_quotes hkind] at h hfound
  obtain rfl : found = (lexeme, rest) := Option.some.inj ((first?_of_placeholder? hfound).symm.trans h)
  obtain ⟨-, body, hbody⟩ := placeholder?_spec hfound
  rw [hbody.kind] at hkind
  cases hkind

end GridFilter.Lexeme
