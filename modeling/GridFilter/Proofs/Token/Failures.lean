import GridFilter.Proofs.Token.Sizes

/-! Where a text stops having tokens. A failure is located exactly: the text in front of its place has tokens, and what
    stands there is no lexeme, wherever it stands. -/

namespace GridFilter.Token
open Lexeme

variable {position bound : Nat} {text rest : List Char} {lexeme : Lexeme} {e : LexError}

/-! ### Failures as a relation -/

/-- A text that starts at a byte offset has tokens up to a place where something else than a blank stands and no lexeme
    does. -/
inductive Fails : Nat → List Char → LexError → Prop where
  | stuck {position : Nat} {text : List Char} : (∃ c ∈ text.head?, Text.isBlank c = false) → first? text = none →
      Fails position text ⟨.ofList text, position⟩
  | blank {position : Nat} {c : Char} {text : List Char} {e : LexError} : Text.isBlank c = true →
      Fails (position + c.utf8Size) text e → Fails position (c :: text) e
  | token {position : Nat} {text rest : List Char} {lexeme : Lexeme} {e : LexError} :
      first? text = some (lexeme, rest) → Fails (position + Text.byteSize lexeme.span) rest e → Fails position text e

/-- The bound is never what stops a scan, for each lexeme takes a character. -/
theorem fails_of_scan (h : scan bound position text = .error e) (hbound : text.length ≤ bound)
    (hhead : ∀ c ∈ text.head?, Text.isBlank c = false) : Fails position text e := by
  induction bound generalizing position text with
  | zero =>
    obtain rfl := List.length_eq_zero_iff.mp (Nat.le_zero.mp hbound)
    cases h
  | succ bound ih =>
    cases text with
    | nil => cases h
    | cons c text =>
      unfold scan at h
      split at h
      · next hnone =>
        cases h
        exact .stuck ⟨c, rfl, hhead c rfl⟩ hnone
      · next lexeme rest hfirst =>
        dsimp only at h
        split at h
        · cases h
        · next hfails =>
          cases h
          obtain ⟨d, tail, heq, -, hlength⟩ := first?_trimStart hfirst
          obtain ⟨rfl, rfl⟩ := List.cons.inj heq
          refine .token hfirst (of_trimStart (Fails · · _) .blank (ih hfails ?_ fun d => head?_dropWhile))
          exact Nat.le_trans (List.dropWhile_sublist _).length_le (Nat.le_trans hlength (Nat.le_of_succ_le_succ hbound))

theorem scan_of_fails (h : Fails position text e) (hbound : text.length ≤ bound) :
    scan bound (position + Text.byteSize (text.takeWhile Text.isBlank)) (Text.trimStart text) = .error e := by
  induction h generalizing bound with
  | @stuck position text hhead hnone =>
    obtain ⟨c, hc, hblank⟩ := hhead
    obtain ⟨tail, rfl⟩ := List.head?_eq_some_iff.mp hc
    obtain ⟨bound, rfl⟩ := Nat.exists_eq_succ_of_ne_zero (by simp at hbound; omega : bound ≠ 0)
    simp [Text.trimStart, Text.byteSize, hblank, scan, hnone]
  | blank hc _ ih => rw [scan_blank hc, ih (Nat.le_of_succ_le hbound)]
  | token hfirst _ ih =>
    obtain ⟨fewer, hfewer, hscan⟩ := scan_token hfirst hbound
    rw [hscan, ih hfewer]
    rfl

/-- A text fails to have tokens as the relation says. -/
theorem ofChars_eq_error : ofChars text = .error e ↔ Fails 0 text e := by
  constructor
  · intro h
    have hfails := fails_of_scan h (List.dropWhile_sublist _).length_le fun c => head?_dropWhile
    rw [← Nat.zero_add (Text.byteSize _)] at hfails
    exact of_trimStart (Fails · · e) .blank hfails
  · intro h
    have hscan := scan_of_fails h (Nat.le_refl _)
    rwa [Nat.zero_add] at hscan

/-! ### The place of a failure -/

/-- What stands in front of a failure has tokens: no lexeme there rests on what stands behind. -/
theorem Fails.located (h : Fails position text e) : ∃ front behind tokens, text = front ++ behind ∧
    e = ⟨.ofList behind, position + Text.byteSize front⟩ ∧ (∃ c ∈ behind.head?, Text.isBlank c = false) ∧
    first? behind = none ∧ Lexes position front tokens := by
  induction h with
  | @stuck position text hhead hnone => exact ⟨[], text, [], rfl, rfl, hhead, hnone, .nil⟩
  | @blank position c text e hc _ ih =>
    obtain ⟨front, behind, tokens, rfl, rfl, hhead, hnone, hlexes⟩ := ih
    exact ⟨c :: front, behind, tokens, rfl, by rw [Text.byteSize, Nat.add_assoc], hhead, hnone, .blank hc hlexes⟩
  | @token position text rest lexeme e hfirst _ ih =>
    obtain ⟨front, behind, tokens, rfl, rfl, hhead, hnone, hlexes⟩ := ih
    refine ⟨lexeme.span ++ front, behind, _, ?_, ?_, hhead, hnone, .token (first?_cut hfirst ?_) hlexes⟩
    · rw [(taken_first? hfirst).text_eq, List.append_assoc]
    · rw [byteSize_append, Nat.add_assoc]
    · exact endsWord_of_first? hnone

/-- A failure is located exactly. Its text is what is left of the whole from its place on, which is a byte offset, and
    starts with no blank; what stands before it has tokens; and by itself it fails where it starts. -/
theorem located_of_ofText {text : String} {e : LexError} (h : ofText text = .error e) :
    ∃ front, text = front ++ e.remaining ∧ front.utf8ByteSize = e.position ∧
      (∃ c ∈ e.remaining.toList.head?, Text.isBlank c = false) ∧ (∃ tokens, ofText front = .ok tokens) ∧
      ofText e.remaining = .error ⟨e.remaining, 0⟩ := by
  obtain ⟨front, behind, tokens, htext, rfl, hhead, hnone, hlexes⟩ := (ofChars_eq_error.mp h).located
  refine ⟨.ofList front, ?_, ?_, ?_, ⟨tokens, ?_⟩, ?_⟩
  · rw [← String.ofList_append, ← htext, String.ofList_toList]
  · rw [Text.utf8ByteSize_ofList, Nat.zero_add]
  · rwa [String.toList_ofList]
  · rw [ofText, String.toList_ofList, ofChars_eq_ok]
    exact hlexes
  · rw [ofText, String.toList_ofList, ofChars_eq_error]
    exact .stuck hhead hnone

/-- A text with a doubled quote, an operator of two words that is none, and a string that is not closed. -/
def unclosed : String := "'É''s' IS NOTE \x7bx\x7d'open \x7dNOT  "

theorem located_of_ofText_unclosed : ofText unclosed = .error ⟨"'open \x7dNOT  ", 19⟩ ∧
    ∃ front, unclosed = front ++ "'open \x7dNOT  " ∧ front.utf8ByteSize = 19 ∧
      (∃ c ∈ "'open \x7dNOT  ".toList.head?, Text.isBlank c = false) ∧ (∃ tokens, ofText front = .ok tokens) ∧
      ofText "'open \x7dNOT  " = .error ⟨"'open \x7dNOT  ", 0⟩ := by
  have herror : ofText unclosed = .error ⟨"'open \x7dNOT  ", 19⟩ := by rfl
  exact ⟨herror, located_of_ofText herror⟩

end GridFilter.Token
