import GridFilter.Proofs.Token.Alone
import GridFilter.Proofs.Token.Braces

/-! Reading the spelling of a string. A string is one token, unless it shows a name in braces: such a name is a placeholder
    where a quote stands behind it in the spelling, the closing quote or the first half of a doubled one. -/

namespace GridFilter

namespace Lexeme

variable {text rest body after tail : List Char}

/-- A text starts with a name in braces, and goes on with a quote if it goes on at all. -/
def ShowsName (text : List Char) : Prop :=
  ∃ body after, text = Text.inBraces body ++ after ∧ body ≠ [] ∧ '\x7d' ∉ body ∧ (after = [] ∨ after.head? = some '\'')

theorem doubleQuotes_append (front behind : List Char) :
    Value.doubleQuotes (front ++ behind) = Value.doubleQuotes front ++ Value.doubleQuotes behind :=
  List.flatMap_append

theorem head?_doubleQuotes (text : List Char) : (Value.doubleQuotes text).head? = text.head? := by
  cases text with
  | nil => rfl
  | cons c text =>
    rw [doubleQuotes_cons]
    split
    · next hc => rw [hc]; rfl
    · rfl

theorem doubleQuotes_inBraces (body : List Char) :
    Value.doubleQuotes (Text.inBraces body) = Text.inBraces (Value.doubleQuotes body) := by
  rw [Text.inBraces, doubleQuotes_cons, doubleQuotes_append]
  rfl

/-- The spelling of a name in braces is closed by what would be the first half of a doubled quote. -/
theorem quotes_inBraces_quote (body more : List Char) : quotes (Text.inBraces body ++ '\'' :: more) =
    '\'' :: (Text.inBraces (Value.doubleQuotes body) ++ ['\'']) ++ quotes more := by
  rw [quotes, doubleQuotes_append, doubleQuotes_inBraces, doubleQuotes_cons, quotes]
  simp

theorem quotes_inBraces (body : List Char) :
    quotes (Text.inBraces body) = '\'' :: (Text.inBraces (Value.doubleQuotes body) ++ ['\'']) := by
  rw [quotes, doubleQuotes_inBraces]

theorem doubleQuotes_ne_nil (h : body ≠ []) : Value.doubleQuotes body ≠ [] := by
  obtain ⟨c, tail, rfl⟩ := List.exists_cons_of_ne_nil h
  rw [doubleQuotes_cons]
  split <;> simp

/-- The first lexeme of the spelling of a string that shows a name is a placeholder. -/
theorem first?_quotes_of_showsName (h : ShowsName text) : ∃ name span rest,
    first? (quotes text) = some (⟨.placeholder, name, span⟩, rest) ∧
      (rest = [] ∨ ∃ more, rest = quotes more ∧ more.length < text.length) := by
  obtain ⟨body, after, rfl, hne, hclosing, hafter⟩ := h
  have hdoubled : '\x7d' ∉ Value.doubleQuotes body := mt mem_doubleQuotes.mp hclosing
  rcases hafter with rfl | hafter
  · have hfirst := @first?_quotedPlaceholder _ [] (doubleQuotes_ne_nil hne) hdoubled
    rw [List.append_nil, ← quotes_inBraces] at hfirst
    exact ⟨_, _, [], by rw [List.append_nil, hfirst], .inl rfl⟩
  · obtain ⟨more, rfl⟩ := List.head?_eq_some_iff.mp hafter
    have hfirst := @first?_quotedPlaceholder _ (quotes more) (doubleQuotes_ne_nil hne) hdoubled
    rw [← quotes_inBraces_quote] at hfirst
    exact ⟨_, _, quotes more, hfirst, .inr ⟨more, rfl, by simp; omega⟩⟩

/-- The spelling of a string has a placeholder in front only if the string shows a name. -/
theorem showsName_of_placeholder? (h : placeholder? (quotes text) ≠ none) : ShowsName text := by
  obtain ⟨inner, hinner, hhead, htrapped⟩ := placeholder?_quote.mp h
  obtain ⟨tail, rfl, rfl⟩ := doubleQuotes_eq_cons.mp hinner
  have hmem : '\x7d' ∈ tail := Decidable.byContradiction fun hmem => by
    rw [trapped_append (mt mem_doubleQuotes.mp hmem)] at htrapped
    cases htrapped
  obtain ⟨body, after, rfl, hbody⟩ := List.eq_append_cons_of_mem hmem
  refine ⟨body, after, by simp [Text.inBraces], ?_, hbody, ?_⟩
  · rintro rfl
    exact hhead rfl
  · -- What closes the first brace stands in front of a quote.
    have hsplit : Value.doubleQuotes (body ++ '\x7d' :: after) ++ ['\''] =
        Value.doubleQuotes body ++ '\x7d' :: (Value.doubleQuotes after ++ ['\'']) := by
      rw [doubleQuotes_append, doubleQuotes_cons]
      simp
    rw [hsplit, trapped_closing (mt mem_doubleQuotes.mp hbody), List.head?_append, head?_doubleQuotes,
      beq_iff_eq] at htrapped
    cases after with
    | nil => exact .inl rfl
    | cons c after => exact .inr htrapped

theorem first?_quotes (h : ¬ShowsName text) :
    first? (quotes text) = some (⟨.string, .ofList text, quotes text⟩, []) := by
  have hnone : placeholder? (quotes text ++ []) = none := by
    rw [List.append_nil]
    exact Decidable.of_not_not (mt showsName_of_placeholder? h)
  rw [← first?_string hnone (by simp), List.append_nil]

end Lexeme

namespace Token
open Lexeme

theorem toList_quoted (s : String) : (Value.quoted s).toList = quotes s.toList := String.toList_ofList

/-- The spelling of a string is always read, if not always as that string. -/
theorem exists_lexes_quotes (text : List Char) (position : Nat) : ∃ tokens, Lexes position (quotes text) tokens := by
  induction hlength : text.length using Nat.strongRecOn generalizing text position with
  | ind length ih =>
    subst hlength
    by_cases h : ShowsName text
    · obtain ⟨name, span, rest, hfirst, rfl | ⟨more, rfl, hmore⟩⟩ := first?_quotes_of_showsName h
      · exact ⟨_, .token hfirst .nil⟩
      · obtain ⟨tokens, hlexes⟩ := ih more.length hmore more _ rfl
        exact ⟨_, .token hfirst hlexes⟩
    · exact ⟨_, .token (first?_quotes h) .nil⟩

theorem ofText_quoted_of_showsName {s : String} (h : ShowsName s.toList) :
    ∃ name rest, ofText (Value.quoted s) = .ok (⟨.placeholder, name, 0⟩ :: rest) := by
  obtain ⟨name, span, rest, hfirst, hrest⟩ := first?_quotes_of_showsName h
  have hlexes : ∃ tokens, Lexes (0 + Text.byteSize span) rest tokens := by
    rcases hrest with rfl | ⟨more, rfl, -⟩
    · exact ⟨[], .nil⟩
    · exact exists_lexes_quotes more _
  obtain ⟨tokens, hlexes⟩ := hlexes
  exact ⟨name, tokens, ofChars_eq_ok.mpr (toList_quoted s ▸ .token hfirst hlexes)⟩

theorem ofText_quoted_of_not_showsName {s : String} (h : ¬ShowsName s.toList) :
    ofText (Value.quoted s) = .ok [⟨.string, s, 0⟩] := by
  have hfirst := first?_quotes h
  rw [String.ofList_toList] at hfirst
  exact ofChars_eq_ok.mpr (toList_quoted s ▸ .token hfirst .nil)

/-- The spelling of a string is read as that string and nothing else, unless the string starts with a name in braces that
    ends it or has a quote behind it; there the name is read as a placeholder. -/
theorem ofText_quoted_iff (s : String) :
    (ofText (Value.quoted s) = .ok [⟨.string, s, 0⟩] ↔ ¬ShowsName s.toList) ∧
      ((∃ name rest, ofText (Value.quoted s) = .ok (⟨.placeholder, name, 0⟩ :: rest)) ↔ ShowsName s.toList) := by
  by_cases h : ShowsName s.toList
  · obtain ⟨name, rest, hread⟩ := ofText_quoted_of_showsName h
    refine ⟨⟨fun hstring => ?_, fun hnot => absurd h hnot⟩, fun _ => h, fun _ => ⟨name, rest, hread⟩⟩
    rw [hread] at hstring
    cases hstring
  · have hread := ofText_quoted_of_not_showsName h
    refine ⟨⟨fun _ => h, fun _ => hread⟩, ?_, fun hshows => absurd hshows h⟩
    rintro ⟨name, rest, hplaceholder⟩
    rw [hread] at hplaceholder
    cases hplaceholder

/-- `{a}'b` is no name in braces, but of its spelling `'{a}''b'` the first five characters are taken for a placeholder. -/
theorem ofText_quoted_cut : (∀ body, "\x7ba\x7d'b".toList ≠ Text.inBraces body) ∧
    ofText (Value.quoted "\x7ba\x7d'b") = .ok [⟨.placeholder, "a", 0⟩, ⟨.string, "b", 5⟩] := by
  refine ⟨fun body h => ?_, by rfl⟩
  have hlast := congrArg List.getLast? h
  rw [Text.inBraces, ← List.cons_append, List.getLast?_concat] at hlast
  cases hlast

end Token

end GridFilter
