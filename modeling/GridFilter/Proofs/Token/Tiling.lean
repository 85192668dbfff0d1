import GridFilter.Proofs.Token.Alone
import GridFilter.Proofs.Token.Tokens

/-! Tokens tile a text. The characters of a token spell it by themselves; blanks alone stand before the first token,
    between two of them and behind the last; and no token begins or ends inside a word. -/

namespace GridFilter.Token
open Lexeme

variable {text rest span before front : List Char} {position : Nat} {tokens : List Token} {lexeme : Lexeme}

/-! ### Tiles -/

/-- A token with the characters that it was read from and the blanks behind them. -/
structure Tile where
  token : Token
  span : List Char
  gap : List Char
deriving DecidableEq, Repr

/-- The text that tiles cover. -/
def covered (tiles : List Tile) : List Char := tiles.flatMap fun tile => tile.span ++ tile.gap

/-- A tile fits in between two texts. Its token stands at the byte offset where the text before it ends and is what the
    characters of the tile spell by themselves, so that these have it as their only token; no word goes on into the
    token or out of it. -/
structure Tile.Fits (tile : Tile) (before behind : List Char) : Prop where
  span_ne_nil : tile.span ≠ []
  gap_blank : ∀ c ∈ tile.gap, Text.isBlank c = true
  position : tile.token.position = Text.byteSize before
  alone : SpelledAlone ⟨tile.token.kind, tile.token.text, tile.span⟩
  only : ofChars tile.span = .ok [⟨tile.token.kind, tile.token.text, 0⟩]
  uncut_start : ¬CutsWord before (tile.span ++ (tile.gap ++ behind))
  uncut_stop : ¬CutsWord (before ++ tile.span) (tile.gap ++ behind)

/-- Tiles follow one another behind a text, each of them fitting in where it stands. -/
def Tiled : (before : List Char) → List Tile → Prop
  | _, [] => True
  | before, tile :: tiles => tile.Fits before (covered tiles) ∧ Tiled (before ++ (tile.span ++ tile.gap)) tiles

/-! ### Cuts -/

theorem not_cutsWord_nil : ¬CutsWord [] text := by
  rintro ⟨⟨c, hc, -⟩, -⟩
  cases hc

theorem cutsWord_append (hne : span ≠ []) : CutsWord (front ++ span) rest ↔ CutsWord span rest := by
  have hlast : (front ++ span).getLast? = span.getLast? := by
    rw [List.getLast?_append, List.getLast?_eq_some_getLast hne]
    rfl
  rw [CutsWord, hlast, CutsWord]

theorem not_cutsWord_blank {c : Char} (h : Text.isBlank c = true) (front : List Char) :
    ¬CutsWord (front ++ [c]) rest := by
  refine not_cutsWord_concat (Bool.eq_false_iff.mpr fun hname => ?_) front
  rw [isBlank_of_name hname] at h
  cases h

/-! ### Positions -/

theorem byteSize_pos (h : text ≠ []) : 0 < Text.byteSize text := by
  cases text with
  | nil => exact absurd rfl h
  | cons c text => exact Nat.lt_of_lt_of_le c.utf8Size_pos (Nat.le_add_right _ _)

theorem Lexes.position_le (h : Lexes position text tokens) : ∀ token ∈ tokens, position ≤ token.position := by
  induction h with
  | nil => simp
  | blank _ _ ih => exact fun token htoken => Nat.le_trans (Nat.le_add_right _ _) (ih token htoken)
  | token _ _ ih =>
    refine List.forall_mem_cons.mpr ⟨Nat.le_refl _, fun token htoken => ?_⟩
    exact Nat.le_trans (Nat.le_add_right _ _) (ih token htoken)

/-- Each token takes a byte at least, so that the next one starts behind it. -/
theorem Lexes.pairwise_position (h : Lexes position text tokens) :
    tokens.Pairwise fun token later => token.position < later.position := by
  induction h with
  | nil => exact .nil
  | blank _ _ ih => exact ih
  | @token position text rest lexeme tokens hfirst hrest ih =>
    refine .cons (fun later hlater => ?_) ih
    have hpos := byteSize_pos (taken_first? hfirst).alone.span_ne_nil
    have hle := hrest.position_le later hlater
    exact Nat.lt_of_lt_of_le (Nat.lt_add_of_pos_right hpos) hle

theorem eq_of_position {j k : Nat} {token other : Token}
    (h : tokens.Pairwise fun token later => token.position < later.position) (hj : tokens[j]? = some token)
    (hk : tokens[k]? = some other) (hposition : token.position = other.position) : j = k := by
  obtain ⟨hjlt, rfl⟩ := List.getElem?_eq_some_iff.mp hj
  obtain ⟨hklt, rfl⟩ := List.getElem?_eq_some_iff.mp hk
  rcases Nat.lt_trichotomy j k with hlt | heq | hgt
  · have hless := List.pairwise_iff_getElem.mp h j k hjlt hklt hlt
    omega
  · exact heq
  · have hless := List.pairwise_iff_getElem.mp h k j hklt hjlt hgt
    omega

/-! ### The tiles of a text -/

theorem byteSize_append (text rest : List Char) :
    Text.byteSize (text ++ rest) = Text.byteSize text + Text.byteSize rest := by
  induction text with
  | nil => exact (Nat.zero_add _).symm
  | cons c text ih => rw [List.cons_append, Text.byteSize, Text.byteSize, ih, Nat.add_assoc]

/-- Each token of a text stands at its byte offset, and is what the characters there spell by themselves. -/
theorem Lexes.exists_span (h : Lexes position text tokens) : ∀ token ∈ tokens, ∃ front span rest,
    text = front ++ (span ++ rest) ∧ token.position = position + Text.byteSize front ∧
      SpelledAlone ⟨token.kind, token.text, span⟩ := by
  induction h with
  | nil => simp
  | @blank position c text tokens _ _ ih =>
    intro token htoken
    obtain ⟨front, span, rest, rfl, hposition, halone⟩ := ih token htoken
    exact ⟨c :: front, span, rest, rfl, by rw [hposition, Text.byteSize, Nat.add_assoc], halone⟩
  | @token position text rest lexeme tokens hfirst _ ih =>
    have htaken := taken_first? hfirst
    refine List.forall_mem_cons.mpr ⟨⟨[], lexeme.span, rest, htaken.text_eq, rfl, htaken.alone⟩, fun token htoken => ?_⟩
    obtain ⟨front, span, behind, rfl, hposition, halone⟩ := ih token htoken
    refine ⟨lexeme.span ++ front, span, behind, ?_, ?_, halone⟩
    · rw [htaken.text_eq, List.append_assoc]
    · rw [hposition, byteSize_append, Nat.add_assoc]

/-- The characters that a lexeme is read from have it as their only token. -/
theorem ofChars_span (h : SpelledAlone lexeme) : ofChars lexeme.span = .ok [⟨lexeme.kind, lexeme.text, 0⟩] :=
  ofChars_eq_ok.mpr (.token (spelledAlone_iff.mp h) .nil)

/-- Behind a text that ends where no word is cut, the tokens of a text are those of tiles, with blanks before the first
    of them. -/
theorem Lexes.tiles (h : Lexes position text tokens) (hposition : position = Text.byteSize front)
    (huncut : ¬CutsWord front text) : ∃ lead tiles, text = lead ++ covered tiles ∧
      (∀ c ∈ lead, Text.isBlank c = true) ∧ tokens = tiles.map Tile.token ∧ Tiled (front ++ lead) tiles := by
  induction h generalizing front with
  | nil => exact ⟨[], [], rfl, by simp, rfl, trivial⟩
  | @blank position c text tokens hc _ ih =>
    obtain ⟨lead, tiles, rfl, hlead, rfl, htiled⟩ := @ih (front ++ [c])
      (by rw [hposition, byteSize_append]; rfl) (not_cutsWord_blank hc front)
    rw [List.append_assoc] at htiled
    exact ⟨c :: lead, tiles, rfl, List.forall_mem_cons.mpr ⟨hc, hlead⟩, rfl, htiled⟩
  | @token position text rest lexeme tokens hfirst _ ih =>
    have htaken := taken_first? hfirst
    have hne : lexeme.span ≠ [] := htaken.alone.span_ne_nil
    have hstop : ¬CutsWord (front ++ lexeme.span) rest := mt (cutsWord_append hne).mp htaken.uncut
    -- What the following tiles have in front of them are the blanks behind this one.
    obtain ⟨gap, tiles, rfl, hgap, rfl, htiled⟩ := @ih (front ++ lexeme.span) (by rw [hposition, byteSize_append]) hstop
    refine ⟨[], ⟨⟨lexeme.kind, lexeme.text, position⟩, lexeme.span, gap⟩ :: tiles, ?_, by simp, rfl, ?_, ?_⟩
    · rw [htaken.text_eq]
      simp [covered]
    · rw [List.append_nil]
      exact ⟨hne, hgap, hposition, htaken.alone, ofChars_span htaken.alone, htaken.text_eq ▸ huncut, hstop⟩
    · rwa [List.append_nil, ← List.append_assoc]

/-- The tokens of a text tile it. Their characters, which spell each of them by themselves, make up the text together
    with the blanks before them, between them and behind them; each stands at its byte offset, and none begins or ends
    inside a word. -/
theorem ofText_tiled {text : String} {tokens : List Token} (h : ofText text = .ok tokens) :
    ∃ lead tiles, text.toList = lead ++ covered tiles ∧ (∀ c ∈ lead, Text.isBlank c = true) ∧
      tokens = tiles.map Tile.token ∧ Tiled lead tiles :=
  (ofChars_eq_ok.mp h).tiles rfl not_cutsWord_nil

/-- A text with a letter of two bytes, an operator of two words, and tokens that touch. -/
def touching : String := " 'É' IS  NOT\x7bx \x7dAND 2ndPlace >= -1.5"

/-- Its tokens. -/
def touchingTokens : List Token := [⟨.string, "É", 1⟩, ⟨.operator, "!=", 6⟩, ⟨.placeholder, "x", 13⟩,
  ⟨.operator, "AND", 17⟩, ⟨.identifier, "2ndPlace", 21⟩, ⟨.operator, ">=", 30⟩, ⟨.number, "-1.5", 33⟩]

theorem ofText_tiled_touching : ofText touching = .ok touchingTokens ∧
    ∃ lead tiles, touching.toList = lead ++ covered tiles ∧ (∀ c ∈ lead, Text.isBlank c = true) ∧
      touchingTokens = tiles.map Tile.token ∧ Tiled lead tiles := by
  have htokens : ofText touching = .ok touchingTokens := by rfl
  exact ⟨htokens, ofText_tiled htokens⟩

end GridFilter.Token
