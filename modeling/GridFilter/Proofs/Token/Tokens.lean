import GridFilter.Proofs.Token.Lexemes

/-! The tokens of a text as a relation: blanks are passed over, and each lexeme gives a token at its place. -/

namespace GridFilter.Token
open Lexeme

variable {position bound : Nat} {text rest : List Char} {tokens : List Token} {lexeme : Lexeme}

/-- The tokens of a text that starts at a byte offset. -/
inductive Lexes : Nat → List Char → List Token → Prop where
  | nil {position : Nat} : Lexes position [] []
  | blank {position : Nat} {c : Char} {text : List Char} {tokens : List Token} : Text.isBlank c = true →
      Lexes (position + c.utf8Size) text tokens → Lexes position (c :: text) tokens
  | token {position : Nat} {text rest : List Char} {lexeme : Lexeme} {tokens : List Token} :
      first? text = some (lexeme, rest) → Lexes (position + Text.byteSize lexeme.span) rest tokens →
      Lexes position text (⟨lexeme.kind, lexeme.text, position⟩ :: tokens)

/-- What holds of a text behind its blanks, and is kept by a blank in front, holds of the text. -/
theorem of_trimStart (holds : Nat → List Char → Prop)
    (hblank : ∀ {position c text}, Text.isBlank c = true → holds (position + c.utf8Size) text → holds position (c :: text))
    (h : holds (position + Text.byteSize (text.takeWhile Text.isBlank)) (Text.trimStart text)) :
    holds position text := by
  induction text generalizing position with
  | nil => exact h
  | cons c text ih =>
    by_cases hc : Text.isBlank c = true
    · refine hblank hc (ih ?_)
      simpa [Text.trimStart, Text.byteSize, hc, Nat.add_assoc] using h
    · simpa [Text.trimStart, Text.byteSize, hc] using h

theorem lexes_of_scan (h : scan bound position text = .ok tokens) : Lexes position text tokens := by
  induction bound generalizing position text tokens with
  | zero =>
    cases text with
    | nil => cases h; exact .nil
    | cons c text => cases h
  | succ bound ih =>
    cases text with
    | nil => cases h; exact .nil
    | cons c text =>
      unfold scan at h
      split at h
      · cases h
      · next lexeme rest hfirst =>
        dsimp only at h
        split at h
        · next more hmore =>
          cases h
          exact .token hfirst (of_trimStart (Lexes · · more) .blank (ih hmore))
        · cases h

/-- A text that a lexeme stands in front of starts with no blank and is longer than what follows. -/
theorem first?_trimStart (h : first? text = some (lexeme, rest)) :
    ∃ c tail, text = c :: tail ∧ Text.isBlank c = false ∧ rest.length ≤ tail.length := by
  obtain ⟨rfl, ⟨c, hc, hblank⟩, -⟩ := first?_spec h
  obtain ⟨tail, htail⟩ := List.head?_eq_some_iff.mp hc
  exact ⟨c, tail ++ rest, by rw [htail, List.cons_append], hblank, by simp⟩

theorem scan_blank {c : Char} (h : Text.isBlank c = true) :
    scan bound (position + Text.byteSize ((c :: text).takeWhile Text.isBlank)) (Text.trimStart (c :: text)) =
      scan bound (position + c.utf8Size + Text.byteSize (text.takeWhile Text.isBlank)) (Text.trimStart text) := by
  simp [Text.trimStart, Text.byteSize, h, Nat.add_assoc]

/-- A lexeme takes one from the bound, and one character at least. -/
theorem scan_token (h : first? text = some (lexeme, rest)) (hbound : text.length ≤ bound) :
    ∃ fewer, rest.length ≤ fewer ∧
      scan bound (position + Text.byteSize (text.takeWhile Text.isBlank)) (Text.trimStart text) =
        (scan fewer (position + Text.byteSize lexeme.span + Text.byteSize (rest.takeWhile Text.isBlank))
          (Text.trimStart rest)).map (⟨lexeme.kind, lexeme.text, position⟩ :: ·) := by
  obtain ⟨c, tail, rfl, hblank, hlength⟩ := first?_trimStart h
  obtain ⟨fewer, rfl⟩ := Nat.exists_eq_succ_of_ne_zero (by simp at hbound; omega : bound ≠ 0)
  refine ⟨fewer, by simp at hbound; omega, ?_⟩
  have htake : (c :: tail).takeWhile Text.isBlank = [] := by simp [hblank]
  have htrim : Text.trimStart (c :: tail) = c :: tail := by simp [Text.trimStart, hblank]
  rw [htake, htrim, Text.byteSize, Nat.add_zero, scan, h]
  · dsimp only
    cases scan fewer _ (Text.trimStart rest) <;> rfl
  · exact List.cons_ne_nil c tail

theorem scan_of_lexes (h : Lexes position text tokens) (hbound : text.length ≤ bound) :
    scan bound (position + Text.byteSize (text.takeWhile Text.isBlank)) (Text.trimStart text) = .ok tokens := by
  induction h generalizing bound with
  | nil => cases bound <;> rfl
  | blank hc _ ih => rw [scan_blank hc, ih (Nat.le_of_succ_le hbound)]
  | token hfirst _ ih =>
    obtain ⟨fewer, hfewer, hscan⟩ := scan_token hfirst hbound
    rw [hscan, ih hfewer]
    rfl

/-- The tokens of a text are those of the relation. -/
theorem ofChars_eq_ok : ofChars text = .ok tokens ↔ Lexes 0 text tokens := by
  constructor
  · intro h
    have hlexes := lexes_of_scan h
    rw [← Nat.zero_add (Text.byteSize _)] at hlexes
    exact of_trimStart (Lexes · · tokens) .blank hlexes
  · intro h
    have hscan := scan_of_lexes h (Nat.le_refl _)
    rwa [Nat.zero_add] at hscan

/-! ### Kinds and texts -/

/-- The kind and the text of a token, wherever it stands. -/
def shape (token : Token) : TokenKind × String := (token.kind, token.text)

theorem isOperator_of_shape {token : Token} {symbol : String} (h : token.shape = (.operator, symbol)) :
    token.isOperator symbol = true := by
  obtain ⟨hkind, htext⟩ := Prod.mk.inj h
  simp [isOperator, hkind, htext]

/-- A text has tokens of these kinds and texts, wherever it starts. -/
def Reads (text : List Char) (shapes : List (TokenKind × String)) : Prop :=
  ∀ position, ∃ tokens, Lexes position text tokens ∧ tokens.map shape = shapes

theorem reads_nil : Reads [] [] := fun _ => ⟨[], .nil, rfl⟩

theorem Reads.blank {shapes : List (TokenKind × String)} (h : Reads text shapes) : Reads (' ' :: text) shapes := by
  intro position
  obtain ⟨tokens, hlexes, hshapes⟩ := h (position + (' ' : Char).utf8Size)
  exact ⟨tokens, .blank (by decide) hlexes, hshapes⟩

theorem Reads.token {shapes : List (TokenKind × String)} (h : Reads rest shapes)
    (hfirst : first? text = some (lexeme, rest)) : Reads text ((lexeme.kind, lexeme.text) :: shapes) := by
  intro position
  obtain ⟨tokens, hlexes, rfl⟩ := h (position + Text.byteSize lexeme.span)
  exact ⟨_, .token hfirst hlexes, rfl⟩

end GridFilter.Token
