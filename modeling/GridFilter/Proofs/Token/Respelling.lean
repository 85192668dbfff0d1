import GridFilter.Proofs.Token.Alone
import GridFilter.Proofs.Token.Braces

/-! Writing tokens again. A token has one spelling that reads back to it, if what follows lets the token end there;
    with the tokens so spelled and the blanks between them, a text has those tokens again. -/

namespace GridFilter.Token
open Lexeme

variable {position : Nat} {text rest span : List Char} {tokens : List Token}

/-- The kind and the text of a token. -/
abbrev Shape := TokenKind × String

/-! ### What a source text promises -/

/-- The characters that strings and placeholders show to a reader in search of a closing brace. -/
def markText : Shape → List Char
  | (.string, text) => quotes text.toList
  | (.placeholder, name) => Text.inBraces name.toList ++ [' ']
  | _ => []

/-- What all strings and placeholders of a list show. -/
def marked (shapes : List Shape) : List Char := shapes.flatMap markText

/-- No string that opens a brace is closed by what follows it. -/
def Calm : List Shape → Prop
  | [] => True
  | (kind, text) :: rest =>
    (kind = .string → Opens text.toList → trapped (marked rest) = false) ∧ Calm rest

/-- What is known of a token that has been read. -/
def Sourced : Shape → Prop
  | (.identifier, text) => IsName text.toList
  | (.string, text) => placeholder? (quotes text.toList) = none
  | (.placeholder, name) => ∃ body, name.toList = Text.trim body ∧ '\x7d' ∉ body
  | _ => True

/-- What is known of a lexeme that is neither a string nor a placeholder. -/
theorem closing_not_mem_span {lexeme : Lexeme} (h : lexeme.Spelled) (hstring : lexeme.kind ≠ .string)
    (hplaceholder : lexeme.kind ≠ .placeholder) : '\x7d' ∉ lexeme.span := by
  unfold Spelled at h
  split at h
  · exact closing_not_mem_word h.2.name
  · exact h.2.closing_not_mem
  · exact absurd ‹_› hstring
  · exact absurd ‹_› hplaceholder
  all_goals exact h

@[simp] theorem marked_cons {shape : Shape} {shapes : List Shape} :
    marked (shape :: shapes) = markText shape ++ marked shapes := rfl

theorem markText_other {kind : TokenKind} {text : String} (hstring : kind ≠ .string)
    (hplaceholder : kind ≠ .placeholder) : markText (kind, text) = [] := by
  cases kind with
  | string => exact absurd rfl hstring
  | placeholder => exact absurd rfl hplaceholder
  | _ => rfl

/-- What the strings and placeholders of a text show, the text shows; so the text that follows a string closes no brace
    that it opens. -/
theorem Lexes.calm (h : Lexes position text tokens) : Calm (tokens.map shape) ∧
    (trapped (marked (tokens.map shape)) = true → trapped text = true) := by
  induction h with
  | nil => exact ⟨trivial, id⟩
  | @blank position c text tokens hc _ ih =>
    have hclosing : c ≠ '\x7d' := by
      rintro rfl
      exact absurd hc (by decide)
    exact ⟨ih.1, fun htrapped => by rw [trapped_cons hclosing]; exact ih.2 htrapped⟩
  | @token position text rest lexeme tokens hfirst _ ih =>
    obtain ⟨rfl, -, hspelled⟩ := first?_spec hfirst
    obtain ⟨kind, text, span⟩ := lexeme
    by_cases hstring : kind = .string
    · subst hstring
      obtain rfl : span = quotes text.toList := hspelled
      refine ⟨⟨fun _ hopens => ?_, ih.1⟩, trapped_quotes_mono ih.2⟩
      -- Were the brace closed by what follows, the lexeme would be a placeholder.
      have hnone := placeholder?_of_string hfirst rfl
      refine Bool.eq_false_iff.mpr fun htrapped => ?_
      exact placeholder?_quotes.mpr (.inr ⟨hopens, ih.2 htrapped⟩) hnone
    by_cases hplaceholder : kind = .placeholder
    · subst hplaceholder
      obtain ⟨body, hbody⟩ : ∃ body, IsPlaceholder ⟨.placeholder, text, span⟩ body := hspelled
      refine ⟨⟨nofun, ih.1⟩, fun htrapped => ?_⟩
      rw [List.map_cons, marked_cons, shape, markText, List.append_assoc,
        trapped_inBraces hbody.closing_not_mem] at htrapped
      cases htrapped
    · refine ⟨⟨fun hkind => absurd hkind hstring, ih.1⟩, fun htrapped => ?_⟩
      rw [List.map_cons, marked_cons, shape, markText_other hstring hplaceholder] at htrapped
      rw [trapped_append (closing_not_mem_span hspelled hstring hplaceholder)]
      exact ih.2 htrapped

/-- What has been read has the form that its kind asks for. -/
theorem Lexes.sourced (h : Lexes position text tokens) : ∀ token ∈ tokens, Sourced (shape token) := by
  induction h with
  | nil => simp
  | blank _ _ ih => exact ih
  | @token position text rest lexeme tokens hfirst _ ih =>
    obtain ⟨rfl, -, hspelled⟩ := first?_spec hfirst
    refine List.forall_mem_cons.mpr ⟨?_, ih⟩
    obtain ⟨kind, text, span⟩ := lexeme
    cases kind with
    | identifier =>
      obtain ⟨rfl, hname⟩ : text = .ofList span ∧ IsName span := hspelled
      simpa [Sourced, shape] using hname
    | string =>
      obtain rfl : span = quotes text.toList := hspelled
      have hnone := placeholder?_of_string hfirst rfl
      cases hfound : placeholder? (quotes text.toList) with
      | none => exact hfound
      | some found => exact absurd hnone (placeholder?_quotes.mpr (.inl (by simp [hfound])))
    | placeholder =>
      obtain ⟨body, hbody⟩ : ∃ body, IsPlaceholder ⟨.placeholder, text, span⟩ body := hspelled
      exact ⟨body, by rw [hbody.text, String.toList_ofList], hbody.open_brace⟩
    | _ => trivial

/-! ### Spelling tokens again -/

/-- The characters of a token in its canonical spelling. -/
def spell : Shape → List Char
  | (.string, text) => quotes text.toList
  | (.placeholder, name) => Text.inBraces name.toList
  | (_, text) => text.toList

/-- The canonical spelling of a token reads back to it in front of this text, if no closing brace makes a placeholder of
    a string. -/
def Fits : Shape → List Char → Prop
  | (.identifier, text), rest =>
    IsName text.toList ∧ endsWord rest = true ∧ (upper text.toList = ['N', 'O', 'T'] → Parted rest)
  | (.number, text), rest => IsNumber text.toList ∧ endsWord rest = true
  | (.string, text), rest => placeholder? (quotes text.toList) = none ∧ rest.head? ≠ some '\''
  | (.placeholder, name), rest => name.toList ≠ [] ∧ '\x7d' ∉ name.toList ∧ Text.trim name.toList = name.toList ∧
    rest.head? ≠ some '\''
  | (kind, text), rest => first? (text.toList ++ rest) = some (⟨kind, text, text.toList⟩, rest)

/-- A token in its canonical spelling is the first lexeme. -/
theorem Fits.first? {kind : TokenKind} {text : String} (h : Fits (kind, text) rest)
    (hcalm : kind = .string → Opens text.toList → trapped rest = false) :
    first? (spell (kind, text) ++ rest) = some (⟨kind, text, spell (kind, text)⟩, rest) := by
  cases kind with
  | identifier =>
    obtain ⟨hname, hend, hparted⟩ := h
    simpa [spell] using first?_name hname hend hparted
  | number => simpa [spell] using first?_number h.1 h.2
  | string =>
    have hnone : placeholder? (quotes text.toList ++ rest) = none := by
      cases hfound : placeholder? (quotes text.toList ++ rest) with
      | none => rfl
      | some found =>
        rcases placeholder?_quotes.mp (by rw [hfound]; simp) with hsome | ⟨hopens, htrapped⟩
        · exact absurd h.1 hsome
        · rw [hcalm rfl hopens] at htrapped
          cases htrapped
    simpa [spell] using first?_string hnone h.2
  | placeholder =>
    obtain ⟨hne, hclosing, htrim, -⟩ := h
    simpa [spell, htrim] using @first?_placeholder text.toList rest hne hclosing
  | _ => exact h

/-- Tokens in their canonical spelling, with blanks between them where they like. -/
inductive Laid : List Char → List Shape → Prop where
  | nil : Laid [] []
  | blank {text : List Char} {shapes : List Shape} : Laid text shapes → Laid (' ' :: text) shapes
  | token {shape : Shape} {rest : List Char} {shapes : List Shape} : Fits shape rest → Laid rest shapes →
      Laid (spell shape ++ rest) (shape :: shapes)

/-- A text so laid out has these tokens, if no string is closed by what follows it. -/
theorem Laid.reads {shapes : List Shape} (h : Laid text shapes) (hcalm : Calm shapes) :
    Reads text shapes ∧ (trapped text = true → trapped (marked shapes) = true) := by
  induction h with
  | nil => exact ⟨reads_nil, id⟩
  | blank _ ih =>
    obtain ⟨hreads, htrapped⟩ := ih hcalm
    exact ⟨hreads.blank, fun h => htrapped (by rwa [trapped_cons (by decide)] at h)⟩
  | @token shape rest shapes hfits _ ih =>
    obtain ⟨hreads, htrapped⟩ := ih hcalm.2
    obtain ⟨kind, text⟩ := shape
    -- The rest closes a brace only if the strings and placeholders in it do, and these are calm.
    have hfirst := hfits.first? fun hkind hopens => Bool.eq_false_iff.mpr fun hrest =>
      absurd (htrapped hrest) (by rw [hcalm.1 hkind hopens]; decide)
    refine ⟨hreads.token hfirst, fun h => ?_⟩
    rw [marked_cons]
    by_cases hstring : kind = .string
    · subst hstring
      exact trapped_quotes_mono htrapped h
    by_cases hplaceholder : kind = .placeholder
    -- A placeholder closes its own brace, and no quote stands behind it.
    · subst hplaceholder
      obtain ⟨-, hclosing, -, hrest⟩ := hfits
      rw [spell, trapped_inBraces hclosing, beq_iff_eq] at h
      exact absurd h hrest
    · rw [markText_other hstring hplaceholder]
      rw [trapped_append (closing_not_mem_span (first?_spec hfirst).2.2 hstring hplaceholder)] at h
      exact htrapped h

end GridFilter.Token
