import GridFilter.Proofs.Token.Tiling

/-! Where a token stops, by its own text and in the text that it was read from. These places are the same, except that a
    string stands in quotes there and a placeholder in braces, and that an operator may be written with more characters
    than its token has. -/

namespace GridFilter

/-! ### Bytes and characters -/

namespace Text

theorem utf8ByteSize_ofList (text : List Char) : (String.ofList text).utf8ByteSize = byteSize text := by
  induction text with
  | nil => rfl
  | cons c text ih =>
    rw [byteSize, String.ofList_cons, String.utf8ByteSize_append, String.utf8ByteSize_singleton, ih]

theorem byteSize_eq_length {text : List Char} (h : ∀ c ∈ text, c.toNat ≤ 127) : byteSize text = text.length := by
  induction text with
  | nil => rfl
  | cons c text ih =>
    obtain ⟨hc, htext⟩ := List.forall_mem_cons.mp h
    rw [byteSize, Char.utf8Size_eq_one_iff.mpr hc, ih htext, List.length_cons, Nat.add_comm]

theorem byteSize_trim_le (text : List Char) : byteSize (trim text) ≤ byteSize text := by
  obtain ⟨before, behind, htext, -, -⟩ := exists_trim text
  have hsize := congrArg byteSize htext
  rw [Token.byteSize_append, Token.byteSize_append] at hsize
  omega

theorem byteSize_inBraces (body : List Char) : byteSize (inBraces body) = byteSize body + 2 := by
  have hbrace : '\x7b'.utf8Size = 1 ∧ byteSize ['\x7d'] = 1 := by decide
  rw [inBraces, byteSize, Token.byteSize_append, hbrace.1, hbrace.2]
  omega

end Text

namespace Lexeme

variable {span : List Char} {lexeme : Lexeme} {kind : TokenKind} {symbol : String}

theorem byteSize_doubleQuotes (text : List Char) : Text.byteSize text ≤ Text.byteSize (Value.doubleQuotes text) := by
  induction text with
  | nil => exact Nat.le_refl _
  | cons c text ih =>
    rw [doubleQuotes_cons, Token.byteSize_append, Text.byteSize]
    split
    · next hc =>
      subst hc
      have hquote : '\''.utf8Size = 1 ∧ Text.byteSize ['\'', '\''] = 2 := by decide
      omega
    · have hsingle : Text.byteSize [c] = c.utf8Size := Nat.add_zero _
      omega

theorem byteSize_phrase (h : IsPhrase span) : Text.byteSize span = span.length := by
  refine Text.byteSize_eq_length fun c hc => ?_
  rcases h.chars c hc with hname | hgap
  · have hrange := name_range hname
    omega
  · simp only [isGap, Bool.or_eq_true, beq_iff_eq] at hgap
    rcases hgap with ((rfl | rfl) | rfl) | rfl
    all_goals decide

/-! ### Shortened tokens -/

/-- The token has less than was written: the quotes of a string and the braces of a placeholder are left out, and an
    operator has been written with more characters than it has. -/
def Shortened (lexeme : Lexeme) : Prop :=
  lexeme.kind = .string ∨ lexeme.kind = .placeholder ∨
    lexeme.kind = .operator ∧ lexeme.text.length < lexeme.span.length

/-- The bytes of a lexeme are those of its text, or it is shortened and they are more. -/
def Measured (lexeme : Lexeme) : Prop :=
  lexeme.Shortened ∧ lexeme.text.utf8ByteSize < Text.byteSize lexeme.span ∨
    ¬lexeme.Shortened ∧ lexeme.text.utf8ByteSize = Text.byteSize lexeme.span

/-- Words and signs have a byte for each character, and as many of them as their token, unless they are operators. -/
theorem measured_of_plain (hkind : kind ∈ plainKinds) (hspan : Text.byteSize span = span.length)
    (hsymbol : symbol.utf8ByteSize = symbol.length) (hle : symbol.length ≤ span.length)
    (hother : kind ≠ .operator → symbol.length = span.length) : Measured ⟨kind, symbol, span⟩ := by
  have hshortened : Shortened ⟨kind, symbol, span⟩ ↔ symbol.length < span.length := by
    simp only [plainKinds, List.mem_cons, List.not_mem_nil, or_false] at hkind
    rcases hkind with rfl | rfl | rfl | rfl | rfl
    · simp [Shortened]
    all_goals simp [Shortened, hother (by decide)]
  rw [Measured, hshortened, hspan, hsymbol]
  omega

theorem SpelledAlone.measured (h : SpelledAlone lexeme) : lexeme.Measured := by
  cases h with
  | @word span kind symbol hword =>
    have hwords : ∀ entry ∈ wordTokens, entry.2.1 ∈ plainKinds ∧ entry.2.2.utf8ByteSize = entry.2.2.length ∧
        entry.2.2.length ≤ entry.1.length ∧ (entry.2.1 ≠ .operator → entry.2.2.length = entry.1.length) := by decide
    obtain ⟨hkind, hsymbol, hle, hother⟩ := hwords _ hword
    have hlength : (upper span).length = span.length := List.length_map _
    have hspan := byteSize_phrase (isLanguage_word hword).phrase
    exact measured_of_plain hkind hspan hsymbol (hlength ▸ hle) (hlength ▸ hother)
  | @phrase before gap behind symbol hphrase hne hgap =>
    have hphrases : ∀ entry ∈ phraseTokens, entry.2.2.utf8ByteSize = entry.2.2.length ∧
        entry.2.2.length ≤ entry.1.length + 1 + entry.2.1.length := by decide
    obtain ⟨hsymbol, hle⟩ := hphrases _ hphrase
    have hle : symbol.length ≤ before.length + 1 + behind.length := by simpa [upper] using hle
    have hpos : 0 < gap.length := List.length_pos_iff.mpr hne
    have hspan := byteSize_phrase (isLanguage_phrase hphrase hne hgap).phrase
    refine measured_of_plain (by decide) hspan hsymbol ?_ (fun hother => absurd rfl hother)
    rw [List.length_append, List.length_append]
    omega
  | sign hsign =>
    have hsigns : ∀ entry ∈ signTokens, entry.2.1 ∈ plainKinds ∧ Text.byteSize entry.1 = entry.1.length ∧
        entry.2.2.utf8ByteSize = entry.2.2.length ∧ entry.2.2.length = entry.1.length := by decide
    obtain ⟨hkind, hspan, hsymbol, hlength⟩ := hsigns _ hsign
    exact measured_of_plain hkind hspan hsymbol (Nat.le_of_eq hlength) fun _ => hlength
  | @braces body =>
    refine .inl ⟨.inr (.inl rfl), ?_⟩
    have htrim := Text.byteSize_trim_le body
    rw [Text.utf8ByteSize_ofList, Text.byteSize_inBraces]
    omega
  | @quotedBraces body =>
    refine .inl ⟨.inr (.inl rfl), ?_⟩
    have htrim := Text.byteSize_trim_le body
    rw [Text.utf8ByteSize_ofList, Text.byteSize, Token.byteSize_append, Text.byteSize_inBraces]
    omega
  | @string text =>
    refine .inl ⟨.inl rfl, ?_⟩
    have hdoubled := byteSize_doubleQuotes text
    have hpos := Char.utf8Size_pos '\''
    rw [Text.utf8ByteSize_ofList, quotes, Text.byteSize, Token.byteSize_append]
    omega
  | number | name => exact .inr ⟨by simp [Shortened], Text.utf8ByteSize_ofList _⟩

end Lexeme

/-! ### Where tokens stop -/

namespace Token

variable {tile : Tile} {tiles : List Tile} {before behind : List Char}

/-- What a tile holds, without its place. -/
def Tile.lexeme (tile : Tile) : Lexeme := ⟨tile.token.kind, tile.token.text, tile.span⟩

/-- A token by its own text stops nowhere behind its characters, and right behind them unless it is shortened. -/
theorem Tile.Fits.stop (h : tile.Fits before behind) :
    tile.token.stop ≤ Text.byteSize (before ++ tile.span) ∧
      (tile.token.stop = Text.byteSize (before ++ tile.span) ↔ ¬tile.lexeme.Shortened) := by
  have hmeasured : tile.lexeme.Shortened ∧ tile.token.text.utf8ByteSize < Text.byteSize tile.span ∨
      ¬tile.lexeme.Shortened ∧ tile.token.text.utf8ByteSize = Text.byteSize tile.span := h.alone.measured
  rw [Token.stop, h.position, byteSize_append]
  rcases hmeasured with ⟨hshortened, hless⟩ | ⟨hwhole, hequal⟩
  · exact ⟨by omega, by omega, fun hwhole => absurd hshortened hwhole⟩
  · exact ⟨by omega, fun _ => hwhole, fun _ => by omega⟩

/-- The last of the tiles behind a text has nothing behind it. -/
theorem Tiled.last (h : Tiled before tiles) (hlast : tiles.getLast? = some tile) :
    ∃ front, before ++ covered tiles = front ++ (tile.span ++ tile.gap) ∧ tile.Fits front [] := by
  induction tiles generalizing before with
  | nil => cases hlast
  | cons first tiles ih =>
    obtain ⟨hfirst, htiles⟩ := h
    cases tiles with
    | nil =>
      cases hlast
      exact ⟨before, by simp [covered], hfirst⟩
    | cons second tiles =>
      obtain ⟨front, hcovered, hfits⟩ := ih htiles (by simpa using hlast)
      refine ⟨front, ?_, hfits⟩
      rw [← hcovered, List.append_assoc]
      rfl

/-- The last token of a text, with the characters that it was read from: in front of them stand the other tokens, and
    behind them blanks at most. -/
theorem exists_last_of_ofText {text : String} {tokens : List Token} {last : Token} (h : ofText text = .ok tokens)
    (hlast : tokens.getLast? = some last) : ∃ (front : List Char) (tile : Tile),
      text.toList = front ++ (tile.span ++ tile.gap) ∧ tile.token = last ∧ tile.Fits front [] := by
  obtain ⟨lead, tiles, htext, -, rfl, htiled⟩ := (ofChars_eq_ok.mp h).tiles rfl not_cutsWord_nil
  rw [List.getLast?_map, Option.map_eq_some_iff] at hlast
  obtain ⟨tile, htile, rfl⟩ := hlast
  obtain ⟨front, hcovered, hfits⟩ := Tiled.last htiled htile
  exact ⟨front, tile, htext.trans hcovered, rfl, hfits⟩

end Token

end GridFilter
