import GridFilter.Proofs.Token.Respelling
import GridFilter.Proofs.Token.Tiling
import Mathlib.Data.List.Chain

/-! Tokens written again with single blanks between them. A token in its canonical spelling is spelled alone, and a blank
    behind it lets it end, unless it is a name `NOT` and the word behind the blank makes an operator of the two. Nothing
    else is lost: no string becomes a placeholder that was none before. -/

namespace GridFilter.Token
open Lexeme

variable {rest word : List Char} {token : Token} {tokens : List Token} {lexeme : Lexeme} {kind : TokenKind}
  {symbol text : String}

/-! ### Words and signs -/

/-- The kinds and texts of the tokens that words and signs give. -/
def plainTokens : List (TokenKind × String) :=
  wordTokens.map (·.2) ++ (phraseTokens.map (fun phrase => (.operator, phrase.2.2)) ++ signTokens.map (·.2))

/-- The text of a word or a sign spells its token, whichever way that was written. -/
theorem spelledAlone_plain (h : (kind, symbol) ∈ plainTokens) : SpelledAlone ⟨kind, symbol, symbol.toList⟩ := by
  have hplain : ∀ plain ∈ plainTokens, (plain.2.toList, plain) ∈ signTokens ∨
      (upper plain.2.toList, plain) ∈ wordTokens ∨ ∃ phrase ∈ phraseTokens, plain = (.operator, phrase.2.2) ∧
        phrase.2.2.toList = phrase.1 ++ [' '] ++ phrase.2.1 := by decide
  have hphrases : ∀ phrase ∈ phraseTokens, (upper phrase.1, upper phrase.2.1, phrase.2.2) ∈ phraseTokens := by decide
  rcases hplain _ h with hsign | hword | ⟨⟨first, second, written⟩, hphrase, heq, hspan⟩
  · exact .sign hsign
  · exact .word hword
  · cases heq
    rw [hspan]
    exact .phrase (hphrases _ hphrase) (by simp) (List.forall_mem_singleton.mpr (by decide))

/-- The text of a word or a sign reads back to its token in front of a blank. -/
theorem fits_plain (h : (kind, symbol) ∈ plainTokens) (hrest : ∀ c ∈ rest.head?, Text.isBlank c = true) :
    Fits (kind, symbol) rest := by
  have hplain : ∀ plain ∈ plainTokens, plain.1 ∈ plainKinds ∧
      ∀ phrase ∈ phraseTokens, phrase.1 ≠ upper plain.2.toList := by decide
  have hstring : TokenKind.string ∉ plainKinds := by decide
  obtain ⟨hkind, hunpaired⟩ := hplain _ h
  have halone := spelledAlone_plain h
  have hends : Ends ⟨kind, symbol, symbol.toList⟩ ([] ++ rest) :=
    halone.ends_nil.append hrest (fun _ second other hphrase => hunpaired _ hphrase rfl) fun heq =>
      absurd (heq ▸ hkind) hstring
  have hfirst := first?_eq_some.mpr ⟨rfl, halone, hends⟩
  simp only [plainKinds, List.mem_cons, List.not_mem_nil, or_false] at hkind
  rcases hkind with rfl | rfl | rfl | rfl | rfl <;> exact hfirst

/-! ### A token in front of a blank -/

/-- What is known of a token that can be written again: some characters spell it, and there is a name to stand in the
    braces of a placeholder. -/
structure Legible (token : Token) : Prop where
  alone : ∃ span, SpelledAlone ⟨token.kind, token.text, span⟩
  named : token.kind = .placeholder → token.text.toList ≠ []

/-- A lexeme is read again from its canonical spelling in front of a blank, if there is a name to stand in the braces of a
    placeholder, and if no name `NOT` is made an operator by what follows. -/
theorem fits_of_spelledAlone (h : SpelledAlone lexeme) (hrest : ∀ c ∈ rest.head?, Text.isBlank c = true)
    (hnamed : lexeme.kind = .placeholder → lexeme.text.toList ≠ [])
    (hparted : lexeme.kind = .identifier → upper lexeme.text.toList = ['N', 'O', 'T'] → Parted rest) :
    Fits (lexeme.kind, lexeme.text) rest := by
  have hquote : rest.head? ≠ some '\'' := fun hquote => absurd (hrest _ hquote) (by decide)
  have hname {body : List Char} (hne : (String.ofList (Text.trim body)).toList ≠ []) (hclosing : '\x7d' ∉ body) :
      Fits (.placeholder, .ofList (Text.trim body)) rest := by
    rw [String.toList_ofList] at hne
    rw [Fits, String.toList_ofList]
    exact ⟨hne, fun hmem => hclosing (Text.mem_of_mem_trim hmem), Text.trim_trim, hquote⟩
  cases h with
  | word hword =>
    exact fits_plain (List.mem_append_left _ (List.mem_map_of_mem hword)) hrest
  | phrase hphrase =>
    exact fits_plain (List.mem_append_right _ (List.mem_append_left _ (List.mem_map_of_mem hphrase))) hrest
  | sign hsign =>
    exact fits_plain (List.mem_append_right _ (List.mem_append_right _ (List.mem_map_of_mem hsign))) hrest
  | braces _ hclosing => exact hname (hnamed rfl) hclosing
  | quotedBraces _ hclosing => exact hname (hnamed rfl) hclosing
  | string hnone => exact ⟨by rwa [String.toList_ofList], hquote⟩
  | number hspan => exact ⟨by rwa [String.toList_ofList], endsWord_of_blank hrest⟩
  | name hspan => exact ⟨by rwa [String.toList_ofList], endsWord_of_blank hrest, hparted rfl⟩

theorem Legible.fits (h : Legible token) (hrest : ∀ c ∈ rest.head?, Text.isBlank c = true)
    (hparted : token.kind = .identifier → upper token.text.toList = ['N', 'O', 'T'] → Parted rest) :
    Fits (shape token) rest := by
  obtain ⟨⟨span, halone⟩, hnamed⟩ := h
  exact fits_of_spelledAlone halone hrest hnamed hparted

/-- An operator of one word is what stands behind a blank only where its token does. -/
theorem not_follows_spell (hfits : Fits (kind, text) rest) (hword : (word, .operator, symbol) ∈ wordTokens)
    (hunpaired : ∀ phrase ∈ phraseTokens, phrase.1 ≠ word) (hother : (kind, text) ≠ (.operator, symbol)) :
    ¬Follows word (' ' :: (spell (kind, text) ++ rest)) := by
  intro hfollows
  by_cases hstring : kind = .string
  -- No word begins with a quote.
  · subst hstring
    rw [spell, quotes_append] at hfollows
    obtain ⟨span, after, htext, hupper, -⟩ := hfollows.behind_blank (by simp [isGap])
    have hspan : IsWord span := .of_upper hupper (isWord_of_mem_vocabulary (mem_vocabulary_of_word hword))
    obtain ⟨c, tail, rfl, hc⟩ := hspan.head
    obtain ⟨rfl, -⟩ := List.cons.inj htext
    exact absurd hc (by decide)
  -- What else begins with the word is read as the operator.
  have hfirst := hfits.first? fun hkind => absurd hkind hstring
  obtain ⟨c, tail, htext, hblank, -⟩ := first?_trimStart hfirst
  have hhead : ∀ d ∈ (spell (kind, text) ++ rest).head?, isGap d = false := by
    rw [htext]
    rintro d ⟨⟩
    exact Bool.eq_false_iff.mpr fun hgap => by simp [isBlank_of_isGap hgap] at hblank
  obtain ⟨span, after, hspan, rfl, hend⟩ := hfollows.behind_blank hhead
  rw [hspan, first?_wordToken hword hend fun second other hphrase => absurd rfl (hunpaired _ hphrase)] at hfirst
  cases hfirst
  exact hother rfl

/-! ### Tokens with blanks between them -/

/-- Tokens written again, each in its canonical spelling, with a blank between every two of them. -/
def respelled (tokens : List Token) : String := .ofList ([' '].intercalate (tokens.map fun token => spell (shape token)))

/-- A name `NOT` in any letter case and behind it the operator `IN` or `LIKE`, which side by side are one operator. -/
def PairsUp (token next : Token) : Prop :=
  token.kind = .identifier ∧ Text.sameLetters token.text "NOT" = true ∧
    (next.isOperator "IN" = true ∨ next.isOperator "LIKE" = true)

/-- Tokens in their canonical spelling with a blank in front of each. -/
def spacedOut (tokens : List Token) : List Char := tokens.flatMap fun token => ' ' :: spell (shape token)

theorem toList_respelled_cons (token : Token) (tokens : List Token) :
    (respelled (token :: tokens)).toList = spell (shape token) ++ spacedOut tokens := by
  rw [respelled, String.toList_ofList]
  induction tokens generalizing token with
  | nil => simp [spacedOut]
  | cons next tokens ih =>
    have hnext := ih next
    rw [List.map_cons] at hnext
    rw [List.map_cons, List.map_cons, List.intercalate_cons_cons, hnext]
    simp [spacedOut]

theorem head?_spacedOut (tokens : List Token) : ∀ c ∈ (spacedOut tokens).head?, Text.isBlank c = true := by
  cases tokens with
  | nil => simp [spacedOut]
  | cons token tokens =>
    rintro c ⟨⟩
    decide

/-- Each token is read again in front of the tokens behind it. -/
theorem fits_spacedOut (htoken : Legible token) (htokens : ∀ other ∈ tokens, Legible other)
    (hpaired : (token :: tokens).IsChain fun token next => ¬PairsUp token next) :
    Fits (shape token) (spacedOut tokens) := by
  induction tokens generalizing token with
  | nil => exact htoken.fits (head?_spacedOut []) fun _ _ => ⟨not_follows_of_head (by simp [spacedOut]) _,
      not_follows_of_head (by simp [spacedOut]) _⟩
  | cons next tokens ih =>
    obtain ⟨hpair, hrest⟩ := List.isChain_cons_cons.mp hpaired
    obtain ⟨hnext, htokens⟩ := List.forall_mem_cons.mp htokens
    have hfits := ih hnext htokens hrest
    refine htoken.fits (head?_spacedOut _) fun hkind hnot => ?_
    have hletters : Text.sameLetters token.text "NOT" = true := sameLetters_of_upper (hnot.trans (by decide))
    have hin : (['I', 'N'], TokenKind.operator, "IN") ∈ wordTokens := by decide
    have hlike : (['L', 'I', 'K', 'E'], TokenKind.operator, "LIKE") ∈ wordTokens := by decide
    refine ⟨not_follows_spell hfits hin (by decide) fun hshape => ?_,
      not_follows_spell hfits hlike (by decide) fun hshape => ?_⟩
    · exact hpair ⟨hkind, hletters, .inl (isOperator_of_shape hshape)⟩
    · exact hpair ⟨hkind, hletters, .inr (isOperator_of_shape hshape)⟩

theorem laid_spacedOut (htokens : ∀ token ∈ tokens, Legible token)
    (hpaired : tokens.IsChain fun token next => ¬PairsUp token next) :
    Laid (spacedOut tokens) (tokens.map shape) := by
  induction tokens with
  | nil => exact .nil
  | cons token tokens ih =>
    obtain ⟨htoken, hothers⟩ := List.forall_mem_cons.mp htokens
    exact (Laid.token (fits_spacedOut htoken hothers hpaired) (ih hothers hpaired.tail)).blank

theorem laid_respelled (htokens : ∀ token ∈ tokens, Legible token)
    (hpaired : tokens.IsChain fun token next => ¬PairsUp token next) :
    Laid (respelled tokens).toList (tokens.map shape) := by
  cases tokens with
  | nil => exact .nil
  | cons token tokens =>
    obtain ⟨htoken, hothers⟩ := List.forall_mem_cons.mp htokens
    rw [toList_respelled_cons]
    exact .token (fits_spacedOut htoken hothers hpaired) (laid_spacedOut hothers hpaired.tail)

/-- Tokens of a text that are written again, with single blanks between them, are read as tokens of the same kinds and
    texts, if no placeholder has a blank name and no name `NOT` has the operator `IN` or `LIKE` right behind it. -/
theorem ofText_respelled {source : String} {tokens : List Token} (h : ofText source = .ok tokens)
    (hnamed : ∀ token ∈ tokens, token.kind = .placeholder → Text.isBlankText token.text = false)
    (hpaired : tokens.IsChain fun token next => ¬PairsUp token next) :
    ∃ again, ofText (respelled tokens) = .ok again ∧ again.map shape = tokens.map shape := by
  have hlexes := ofChars_eq_ok.mp h
  have hlegible : ∀ token ∈ tokens, Legible token := by
    intro token htoken
    obtain ⟨front, span, rest, -, -, halone⟩ := hlexes.exists_span token htoken
    refine ⟨⟨span, halone⟩, fun hkind hnil => ?_⟩
    have hblank := hnamed token htoken hkind
    rw [Text.isBlankText, hnil] at hblank
    cases hblank
  obtain ⟨again, hagain, hshapes⟩ := ((laid_respelled hlegible hpaired).reads hlexes.calm.1).1 0
  exact ⟨again, ofChars_eq_ok.mpr hagain, hshapes⟩

/-- A text with a name `NOT`, a string that opens a brace, operators of several spellings, and a name in braces that touch
    other words. -/
def scrawled : String := "not = '\x7bit''s'AND b is  not\x7b P.q \x7dor c<>2ndPlace"

/-- Its tokens. -/
def scrawledTokens : List Token := [⟨.identifier, "not", 0⟩, ⟨.operator, "=", 4⟩, ⟨.string, "\x7bit's", 6⟩,
  ⟨.operator, "AND", 14⟩, ⟨.identifier, "b", 18⟩, ⟨.operator, "!=", 20⟩, ⟨.placeholder, "P.q", 27⟩, ⟨.operator, "OR", 34⟩,
  ⟨.identifier, "c", 37⟩, ⟨.operator, "!=", 38⟩, ⟨.identifier, "2ndPlace", 40⟩]

theorem ofText_respelled_scrawled : ofText scrawled = .ok scrawledTokens ∧
    (∀ token ∈ scrawledTokens, token.kind = .placeholder → Text.isBlankText token.text = false) ∧
      (scrawledTokens.IsChain fun token next => ¬PairsUp token next) ∧
      respelled scrawledTokens = "not = '\x7bit''s' AND b != \x7bP.q\x7d OR c != 2ndPlace" ∧
      ∃ again, ofText "not = '\x7bit''s' AND b != \x7bP.q\x7d OR c != 2ndPlace" = .ok again ∧
        again.map shape = scrawledTokens.map shape := by
  have htokens : ofText scrawled = .ok scrawledTokens := by rfl
  have hnamed : ∀ token ∈ scrawledTokens, token.kind = .placeholder → Text.isBlankText token.text = false := by decide
  have hpaired : scrawledTokens.IsChain fun token next => ¬PairsUp token next := by
    simp [scrawledTokens, PairsUp, isOperator]
  have hrespelled : respelled scrawledTokens = "not = '\x7bit''s' AND b != \x7bP.q\x7d OR c != 2ndPlace" := by rfl
  exact ⟨htokens, hnamed, hpaired, hrespelled, hrespelled ▸ ofText_respelled htokens hnamed hpaired⟩

end GridFilter.Token
