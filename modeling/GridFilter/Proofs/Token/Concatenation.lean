import GridFilter.Proofs.Token.Failures
import GridFilter.Proofs.Token.Respelling

/-! The tokens of two texts with blanks between them. The first text keeps its tokens in front of the blanks, unless the
    last of them is a word that may begin an operator of two words, or a string among them opens a brace that the second
    text closes in front of a quote: there everything from that string to the quote is one placeholder. -/

namespace GridFilter.Token
open Lexeme

variable {position stop offset : Nat} {text rest more : List Char} {tokens others : List Token} {lexeme : Lexeme}
  {e : LexError}

/-! ### Leading up to a later text -/

/-- A text has these tokens up to a later byte offset, where another text is left. -/
inductive Leads : Nat → List Char → List Token → Nat → List Char → Prop where
  | here {position : Nat} {text : List Char} : Leads position text [] position text
  | blank {position stop : Nat} {c : Char} {text rest : List Char} {tokens : List Token} : Text.isBlank c = true →
      Leads (position + c.utf8Size) text tokens stop rest → Leads position (c :: text) tokens stop rest
  | token {position stop : Nat} {text behind rest : List Char} {lexeme : Lexeme} {tokens : List Token} :
      first? text = some (lexeme, behind) → Leads (position + Text.byteSize lexeme.span) behind tokens stop rest →
      Leads position text (⟨lexeme.kind, lexeme.text, position⟩ :: tokens) stop rest

/-- The tokens of what is left come behind those that lead up to it. -/
theorem Leads.lexes (h : Leads position text tokens stop rest) (hrest : Lexes stop rest others) :
    Lexes position text (tokens ++ others) := by
  induction h with
  | here => exact hrest
  | blank hc _ ih => exact .blank hc (ih hrest)
  | token hfirst _ ih => exact .token hfirst (ih hrest)

/-- Where what is left fails, the whole fails. -/
theorem Leads.fails (h : Leads position text tokens stop rest) (hrest : Fails stop rest e) : Fails position text e := by
  induction h with
  | here => exact hrest
  | blank hc _ ih => exact .blank hc (ih hrest)
  | token hfirst _ ih => exact .token hfirst (ih hrest)

theorem leads_blanks (h : ∀ c ∈ text, Text.isBlank c = true) :
    Leads position (text ++ rest) [] (position + Text.byteSize text) rest := by
  induction text generalizing position with
  | nil => exact .here
  | cons c text ih =>
    obtain ⟨hc, htext⟩ := List.forall_mem_cons.mp h
    have hleads := @ih (position + c.utf8Size) htext
    rw [Nat.add_assoc] at hleads
    exact .blank hc hleads

theorem Leads.trans (h : Leads position text tokens stop rest) {further : Nat}
    (hrest : Leads stop rest others further more) : Leads position text (tokens ++ others) further more := by
  induction h with
  | here => exact hrest
  | blank hc _ ih => exact .blank hc (ih hrest)
  | token hfirst _ ih => exact .token hfirst (ih hrest)

/-! ### Texts that start later -/

/-- A token that stands this much later. -/
def moved (offset : Nat) (token : Token) : Token := { token with position := token.position + offset }

theorem Lexes.moved (h : Lexes position text tokens) (offset : Nat) :
    Lexes (position + offset) text (tokens.map (moved offset)) := by
  induction h with
  | nil => exact .nil
  | blank hc _ ih =>
    rw [Nat.add_right_comm] at ih
    exact .blank hc ih
  | token hfirst _ ih =>
    rw [Nat.add_right_comm] at ih
    exact .token hfirst ih

theorem Fails.moved (h : Fails position text e) (offset : Nat) :
    Fails (position + offset) text ⟨e.remaining, e.position + offset⟩ := by
  induction h with
  | stuck hhead hnone => exact .stuck hhead hnone
  | blank hc _ ih =>
    rw [Nat.add_right_comm] at ih
    exact .blank hc ih
  | token hfirst _ ih =>
    rw [Nat.add_right_comm] at ih
    exact .token hfirst ih

/-! ### The tokens of a text are determined -/

theorem Lexes.of_blank {c : Char} (h : Lexes position (c :: text) tokens) (hc : Text.isBlank c = true) :
    Lexes (position + c.utf8Size) text tokens := by
  cases h with
  | blank _ htext => exact htext
  | token hfirst _ =>
    obtain ⟨d, tail, htext, hblank, -⟩ := first?_trimStart hfirst
    obtain ⟨rfl, -⟩ := List.cons.inj htext
    rw [hblank] at hc
    cases hc

theorem Lexes.of_first? (h : Lexes position text tokens) (hfirst : first? text = some (lexeme, rest)) :
    ∃ others, tokens = ⟨lexeme.kind, lexeme.text, position⟩ :: others ∧
      Lexes (position + Text.byteSize lexeme.span) rest others := by
  obtain ⟨c, tail, rfl, hblank, -⟩ := first?_trimStart hfirst
  cases h with
  | blank hc _ =>
    rw [hblank] at hc
    cases hc
  | token hfirst' hrest =>
    rw [hfirst] at hfirst'
    cases hfirst'
    exact ⟨_, rfl, hrest⟩

/-! ### Braces that stay open -/

/-- A brace is closed among the characters of a token. -/
def Closes (token : Token) : Prop :=
  token.kind = .placeholder ∨ token.kind = .string ∧ '\x7d' ∈ token.text.toList

/-- A string opens a brace that neither it nor any token behind it closes. -/
def Dangles : List Token → Prop
  | [] => False
  | token :: tokens =>
    (token.kind = .string ∧ Opens token.text.toList ∧ ∀ other ∈ tokens, ¬Closes other) ∨ Dangles tokens

theorem closing_mem_span (h : lexeme.Spelled) : '\x7d' ∈ lexeme.span ↔
    lexeme.kind = .placeholder ∨ lexeme.kind = .string ∧ '\x7d' ∈ lexeme.text.toList := by
  obtain ⟨kind, text, span⟩ := lexeme
  by_cases hstring : kind = .string
  · subst hstring
    obtain rfl : span = quotes text.toList := h
    simp [quotes, mem_doubleQuotes]
  by_cases hplaceholder : kind = .placeholder
  · subst hplaceholder
    obtain ⟨body, hbody⟩ : ∃ body, IsPlaceholder ⟨.placeholder, text, span⟩ body := h
    rcases hbody.span with rfl | rfl <;> simp [Text.inBraces]
  · simpa [hstring, hplaceholder] using closing_not_mem_span h hstring hplaceholder

/-- What closes a brace in a text is one of its tokens. -/
theorem Lexes.closing_mem (h : Lexes position text tokens) : '\x7d' ∈ text ↔ ∃ token ∈ tokens, Closes token := by
  induction h with
  | nil => simp
  | @blank position c text tokens hc _ ih =>
    have hclosing : '\x7d' ≠ c := by
      rintro rfl
      exact absurd hc (by decide)
    simp [hclosing, ih]
  | @token position text rest lexeme tokens hfirst _ ih =>
    obtain ⟨rfl, -, hspelled⟩ := first?_spec hfirst
    rw [List.mem_append, ih, closing_mem_span hspelled]
    simp [Closes]

/-- Behind a text that lets no brace be closed in front of a quote, a further text does so only where the first closes
    none at all. -/
theorem trapped_append_iff (hrest : trapped rest = false) (hmore : more.head? ≠ some '\'') :
    trapped (rest ++ more) = true ↔ '\x7d' ∉ rest ∧ trapped more = true := by
  by_cases hmem : '\x7d' ∈ rest
  · obtain ⟨body, after, rfl, hbody⟩ := List.eq_append_cons_of_mem hmem
    rw [trapped_closing hbody] at hrest
    rw [List.append_assoc, List.cons_append, trapped_closing hbody]
    cases after with
    | nil => simp [hmore]
    | cons c after => simpa using hrest
  · rw [trapped_append hmem]
    simp [hmem]

/-! ### A lexeme in front of a further text -/

theorem head?_ne_quote (h : ∀ c ∈ text.head?, Text.isBlank c = true) : text.head? ≠ some '\'' :=
  fun hquote => absurd (h _ hquote) (by decide)

/-- A string that opens a brace is read as a placeholder where what follows closes the brace in front of a quote. -/
theorem first?_swallowed {body : List Char} (hopens : Opens body) (htrapped : trapped rest = true) :
    ∃ found after, first? (quotes body ++ rest) = some (found, after) ∧ found.kind = .placeholder := by
  have hfound : placeholder? (quotes body ++ rest) ≠ none := placeholder?_quotes.mpr (.inr ⟨hopens, htrapped⟩)
  obtain ⟨⟨found, after⟩, hfound⟩ := Option.ne_none_iff_exists'.mp hfound
  obtain ⟨-, name, hname⟩ := placeholder?_spec hfound
  exact ⟨found, after, first?_of_placeholder? hfound, hname.kind⟩

/-- The lexeme at the front of a text is there in front of a further text too, unless it is the first word of an operator
    of two or a string that opens a brace and finds it closed. -/
theorem first?_append (h : first? text = some (lexeme, rest)) (hmore : ∀ c ∈ more.head?, Text.isBlank c = true)
    (hunpaired : (∀ c ∈ rest, isGap c = true) → ∀ second symbol, (upper lexeme.span, second, symbol) ∉ phraseTokens)
    (hcalm : lexeme.kind = .string → Opens lexeme.text.toList → trapped (rest ++ more) = false) :
    first? (text ++ more) = some (lexeme, rest ++ more) := by
  obtain ⟨rfl, halone, hends⟩ := first?_eq_some.mp h
  refine first?_eq_some.mpr ⟨List.append_assoc .., halone, hends.append hmore hunpaired fun hstring => ?_⟩
  have hnone := hends.unquoted hstring
  rw [halone.span_eq_quotes hstring] at hnone ⊢
  refine Decidable.of_not_not fun hfound => ?_
  rcases placeholder?_quotes.mp hfound with hshown | ⟨hopens, htrapped⟩
  · exact placeholder?_quotes.mpr (.inl hshown) hnone.2
  · rw [hcalm hstring hopens] at htrapped
    cases htrapped

/-! ### The last token -/

/-- The last token of a text is no word that begins an operator of two words. -/
def Unpaired (position : Nat) (text : List Char) (tokens : List Token) : Prop :=
  ∀ last ∈ tokens.getLast?, ∀ front span gap, text = front ++ (span ++ gap) →
    last.position = position + Text.byteSize front → (∀ c ∈ gap, Text.isBlank c = true) →
    SpelledAlone ⟨last.kind, last.text, span⟩ → ∀ second symbol, (upper span, second, symbol) ∉ phraseTokens

theorem Unpaired.behind {front : List Char} {earlier : List Token}
    (h : Unpaired position (front ++ rest) (earlier ++ tokens)) :
    Unpaired (position + Text.byteSize front) rest tokens := by
  rintro last hlast between span gap rfl hposition
  refine h last ?_ (front ++ between) span gap ?_ ?_
  · rw [List.getLast?_append, Option.mem_def.mp hlast]
    rfl
  · rw [List.append_assoc]
  · rw [hposition, byteSize_append, Nat.add_assoc]

theorem Lexes.eq_nil_of_blank (h : Lexes position text tokens) (hblank : ∀ c ∈ text, Text.isBlank c = true) :
    tokens = [] := by
  induction h with
  | nil => rfl
  | blank _ _ ih => exact ih fun c hc => hblank c (List.mem_cons_of_mem _ hc)
  | token hfirst _ =>
    obtain ⟨c, tail, rfl, hc, -⟩ := first?_trimStart hfirst
    rw [hblank c List.mem_cons_self] at hc
    cases hc

/-- What is left of a text from a byte offset on. -/
def dropBytes : Nat → List Char → List Char
  | 0, text => text
  | _ + 1, [] => []
  | offset + 1, c :: text => dropBytes (offset + 1 - c.utf8Size) text

theorem dropBytes_append (front rest : List Char) : dropBytes (Text.byteSize front) (front ++ rest) = rest := by
  induction front with
  | nil => simp [Text.byteSize, dropBytes]
  | cons c front ih =>
    obtain ⟨bytes, hbytes⟩ := Nat.exists_eq_succ_of_ne_zero (byteSize_pos (List.cons_ne_nil c front)).ne'
    rw [hbytes, List.cons_append, dropBytes, ← Nat.succ_eq_add_one, ← hbytes, Text.byteSize, Nat.add_sub_cancel_left, ih]

/-- The characters of the last token of a text: what stands from its byte offset on, without the blanks at the end. -/
def lastSpelling (text : String) (last : Token) : List Char := Text.trimEnd (dropBytes last.position text.toList)

theorem trimEnd_word {span gap : List Char} (h : IsWord span) (hgap : ∀ c ∈ gap, Text.isBlank c = true) :
    Text.trimEnd (span ++ gap) = span := by
  have hlast : ∀ c ∈ span.reverse.head?, Text.isBlank c = false := fun c hc =>
    isBlank_of_name (h.name c (List.mem_reverse.mp (List.mem_of_mem_head? hc)))
  rw [Text.trimEnd_append hgap, Text.trimEnd, ← Text.trimStart, Text.trimStart_eq_self hlast, List.reverse_reverse]

/-- The words that begin operators of two are `IS` and `NOT`, and `NOT` by itself is a name. -/
theorem unpaired_of_last {source : String}
    (his : ∀ last ∈ tokens.getLast?, upper (lastSpelling source last) ≠ ['I', 'S'])
    (hnot : ∀ last ∈ tokens.getLast?, last.kind = .identifier → Text.sameLetters last.text "NOT" = false) :
    Unpaired 0 source.toList tokens := by
  intro last hlast front span gap htext hposition hgap halone second symbol hphrase
  have hword : IsWord span := isWord_of_vocabulary (mem_vocabulary_of_phrase hphrase).1
  have hfirsts : ∀ phrase ∈ phraseTokens, phrase.1 = ['I', 'S'] ∨ phrase.1 = ['N', 'O', 'T'] := by decide
  rcases hfirsts _ hphrase with hupper | hupper
  · refine his last hlast ?_
    rwa [lastSpelling, hposition, Nat.zero_add, htext, dropBytes_append, trimEnd_word hword hgap]
  · have hname : IsName span := ⟨hword, not_isNumber_of_vocabulary (mem_vocabulary_of_phrase hphrase).1,
      (congrArg (· ∉ reserved) hupper).mpr (by decide)⟩
    have hparted : Parted [] := ⟨not_follows_of_head (by simp) _, not_follows_of_head (by simp) _⟩
    have hfirst := first?_name hname rfl fun _ => hparted
    rw [List.append_nil, spelledAlone_iff.mp halone] at hfirst
    obtain ⟨hkind, htext⟩ : last.kind = .identifier ∧ last.text = .ofList span := by simpa using hfirst
    have hsame : Text.sameLetters last.text "NOT" = true := by
      refine sameLetters_of_upper ?_
      rw [htext, String.toList_ofList]
      exact hupper.trans (by decide)
    rw [hnot last hlast hkind] at hsame
    cases hsame

/-! ### Two texts -/

/-- A string opens a brace that no token behind it closes and that a further text closes in front of a quote. -/
def Swallows (lexeme : Lexeme) (behind : List Token) (more : List Char) : Prop :=
  lexeme.kind = .string ∧ Opens lexeme.text.toList ∧ (∀ other ∈ behind, ¬Closes other) ∧ trapped more = true

theorem trapped_append_string (h : first? text = some (lexeme, rest)) (hrest : Lexes stop rest tokens)
    (hmore : ∀ c ∈ more.head?, Text.isBlank c = true) (hstring : lexeme.kind = .string)
    (hopens : Opens lexeme.text.toList) : trapped (rest ++ more) = true ↔
      (∀ other ∈ tokens, ¬Closes other) ∧ trapped more = true := by
  have htaken := taken_first? h
  have hnone : trapped rest = false := by
    rw [htaken.text_eq, htaken.alone.span_eq_quotes hstring] at h
    refine Bool.eq_false_iff.mpr fun htrapped => ?_
    exact placeholder?_quotes.mpr (.inr ⟨hopens, htrapped⟩) (placeholder?_of_string h hstring)
  rw [trapped_append_iff hnone (head?_ne_quote hmore), hrest.closing_mem]
  simp

theorem first?_append_of_lexes (h : first? text = some (lexeme, rest)) (hrest : Lexes stop rest tokens)
    (hmore : ∀ c ∈ more.head?, Text.isBlank c = true)
    (hunpaired : Unpaired position text (⟨lexeme.kind, lexeme.text, position⟩ :: tokens))
    (hcalm : ¬Swallows lexeme tokens more) : first? (text ++ more) = some (lexeme, rest ++ more) := by
  have htaken := taken_first? h
  refine first?_append h hmore (fun hgap => ?_) fun hstring hopens => Bool.eq_false_iff.mpr fun htrapped => ?_
  · have hblank : ∀ c ∈ rest, Text.isBlank c = true := fun c hc => isBlank_of_isGap (hgap c hc)
    obtain rfl := hrest.eq_nil_of_blank hblank
    exact hunpaired _ rfl [] lexeme.span rest htaken.text_eq rfl hblank htaken.alone
  · exact hcalm ⟨hstring, hopens, (trapped_append_string h hrest hmore hstring hopens).mp htrapped⟩

/-- A text has its tokens in front of a further text that starts with a blank, unless its last token begins an operator of
    two words or the further text closes a brace that a string leaves open. -/
theorem Lexes.leads (h : Lexes position text tokens) (hmore : ∀ c ∈ more.head?, Text.isBlank c = true)
    (hunpaired : Unpaired position text tokens) (hcalm : ¬(Dangles tokens ∧ trapped more = true)) :
    Leads position (text ++ more) tokens (position + Text.byteSize text) more := by
  induction h with
  | nil => exact .here
  | @blank position c text tokens hc _ ih =>
    have hleads := ih (@Unpaired.behind _ _ _ [c] [] hunpaired) hcalm
    rw [Nat.add_assoc] at hleads
    exact .blank hc hleads
  | @token position text rest lexeme tokens hfirst hrest ih =>
    have htext := (taken_first? hfirst).text_eq
    have hnext := first?_append_of_lexes hfirst hrest hmore hunpaired fun ⟨hstring, hopens, hopen, htrapped⟩ =>
      hcalm ⟨.inl ⟨hstring, hopens, hopen⟩, htrapped⟩
    have hleads := ih (@Unpaired.behind _ _ _ lexeme.span [_] (htext ▸ hunpaired)) fun ⟨hdangles, htrapped⟩ =>
      hcalm ⟨.inr hdangles, htrapped⟩
    rw [Nat.add_assoc, ← byteSize_append, ← htext] at hleads
    exact .token hnext hleads

/-- A string that leaves a brace open is no token any more in front of a text that closes the brace. -/
theorem Lexes.not_append (h : Lexes position text tokens) (hmore : ∀ c ∈ more.head?, Text.isBlank c = true)
    (hunpaired : Unpaired position text tokens) (hdangles : Dangles tokens) (htrapped : trapped more = true) :
    ¬Lexes position (text ++ more) (tokens ++ others) := by
  induction h with
  | nil => cases hdangles
  | @blank position c text tokens hc _ ih =>
    exact fun hall => ih (@Unpaired.behind _ _ _ [c] [] hunpaired) hdangles (hall.of_blank hc)
  | @token position text rest lexeme tokens hfirst hrest ih =>
    intro hall
    have htext := (taken_first? hfirst).text_eq
    by_cases hswallows : Swallows lexeme tokens more
    · obtain ⟨hstring, hopens, hswallows⟩ := hswallows
      have htrapped := (trapped_append_string hfirst hrest hmore hstring hopens).mpr hswallows
      obtain ⟨found, after, hfound, hkind⟩ := first?_swallowed hopens htrapped
      rw [← (taken_first? hfirst).alone.span_eq_quotes hstring, ← List.append_assoc, ← htext] at hfound
      obtain ⟨behind, heq, -⟩ := hall.of_first? hfound
      have hsame : lexeme.kind = found.kind := congrArg Token.kind (List.cons.inj heq).1
      rw [hstring, hkind] at hsame
      cases hsame
    · have hnext := first?_append_of_lexes hfirst hrest hmore hunpaired hswallows
      have hdangles : Dangles tokens := hdangles.resolve_left fun ⟨hstring, hopens, hopen⟩ =>
        hswallows ⟨hstring, hopens, hopen, htrapped⟩
      obtain ⟨behind, heq, hbehind⟩ := hall.of_first? hnext
      obtain rfl : tokens ++ others = behind := (List.cons.inj heq).2
      exact ih (@Unpaired.behind _ _ _ lexeme.span [_] (htext ▸ hunpaired)) hdangles hbehind

/-- Two texts with blanks between them have the tokens of the first and then those of the second, which stand as much later
    as the first text and the blanks have bytes, and where the second text has no tokens the whole fails in the same place.
    This is if the first text ends neither in a word `IS` nor in a name `NOT`, and unless the first closing brace of the
    second text stands in front of a quote and closes a brace that a string of the first text leaves open; in that case
    the string is lost. -/
theorem ofText_append {a w b : String} {tokens : List Token} (ha : ofText a = .ok tokens) (hne : w ≠ "")
    (hblank : Text.isBlankText w = true)
    (his : ∀ last ∈ tokens.getLast?, upper (lastSpelling a last) ≠ ['I', 'S'])
    (hnot : ∀ last ∈ tokens.getLast?, last.kind = .identifier → Text.sameLetters last.text "NOT" = false) :
    (∀ others, ofText b = .ok others →
      (ofText (a ++ w ++ b) = .ok (tokens ++ others.map (moved (a ++ w).utf8ByteSize)) ↔
        ¬(Dangles tokens ∧ trapped b.toList = true))) ∧
    (∀ e, ofText b = .error e → ¬(Dangles tokens ∧ trapped b.toList = true) →
      ofText (a ++ w ++ b) = .error ⟨e.remaining, e.position + (a ++ w).utf8ByteSize⟩) := by
  have hlexes := ofChars_eq_ok.mp ha
  have hunpaired := unpaired_of_last his hnot
  have hblanks : ∀ c ∈ w.toList, Text.isBlank c = true := List.all_eq_true.mp hblank
  have htext : (a ++ w ++ b).toList = a.toList ++ (w.toList ++ b.toList) := by
    rw [String.toList_append, String.toList_append, List.append_assoc]
  have hsize : (a ++ w).utf8ByteSize = Text.byteSize a.toList + Text.byteSize w.toList := by
    rw [← String.ofList_toList (s := a ++ w), Text.utf8ByteSize_ofList, String.toList_append, byteSize_append]
  have hhead : ∀ c ∈ (w.toList ++ b.toList).head?, Text.isBlank c = true := by
    obtain ⟨d, tail, hw⟩ := List.exists_cons_of_ne_nil fun hnil => hne (String.toList_eq_nil_iff.mp hnil)
    rw [hw]
    rintro c ⟨⟩
    exact hblanks d (by simp [hw])
  have htrapped : trapped (w.toList ++ b.toList) = trapped b.toList := trapped_append fun hclosing =>
    absurd (hblanks _ hclosing) (by decide)
  have hleads (hcalm : ¬(Dangles tokens ∧ trapped b.toList = true)) :
      Leads 0 (a.toList ++ (w.toList ++ b.toList)) tokens (a ++ w).utf8ByteSize b.toList := by
    have hblanks := @leads_blanks (0 + Text.byteSize a.toList) _ b.toList hblanks
    have hall := (hlexes.leads hhead hunpaired (htrapped ▸ hcalm)).trans hblanks
    rwa [List.append_nil, Nat.zero_add, ← hsize] at hall
  refine ⟨fun others hb => ⟨fun hall hcalm => ?_, fun hcalm => ?_⟩, fun e hb hcalm => ?_⟩
  · refine hlexes.not_append hhead hunpaired hcalm.1 (htrapped ▸ hcalm.2) (htext ▸ ofChars_eq_ok.mp hall)
  · have hothers := (ofChars_eq_ok.mp hb).moved (a ++ w).utf8ByteSize
    rw [Nat.zero_add] at hothers
    exact ofChars_eq_ok.mpr (htext ▸ (hleads hcalm).lexes hothers)
  · have hothers := (ofChars_eq_error.mp hb).moved (a ++ w).utf8ByteSize
    rw [Nat.zero_add] at hothers
    exact ofChars_eq_error.mpr (htext ▸ (hleads hcalm).fails hothers)

/-- A text with a letter of two bytes, a string that leaves a brace open, and an operator of two words at its end. -/
def dangling : String := "'É' <> '\x7bx' IS NOT "

/-- Its tokens. -/
def danglingTokens : List Token :=
  [⟨.string, "É", 0⟩, ⟨.operator, "!=", 5⟩, ⟨.string, "\x7bx", 8⟩, ⟨.operator, "!=", 13⟩]

theorem ofText_append_dangling : ofText dangling = .ok danglingTokens ∧ "\t" ≠ "" ∧ Text.isBlankText "\t" = true ∧
    (∀ last ∈ danglingTokens.getLast?, upper (lastSpelling dangling last) ≠ ['I', 'S']) ∧
    (∀ last ∈ danglingTokens.getLast?, last.kind = .identifier → Text.sameLetters last.text "NOT" = false) ∧
    ofText (dangling ++ "\t" ++ "'\x7dz' > 1") =
      .ok (danglingTokens ++ [⟨.string, "\x7dz", 21⟩, ⟨.operator, ">", 26⟩, ⟨.number, "1", 28⟩]) ∧
    ofText (dangling ++ "\t" ++ "y @") = .error ⟨"@", 23⟩ := by
  have htokens : ofText dangling = .ok danglingTokens := by rfl
  have his : ∀ last ∈ danglingTokens.getLast?, upper (lastSpelling dangling last) ≠ ['I', 'S'] := by decide
  have hnot : ∀ last ∈ danglingTokens.getLast?, last.kind = .identifier → Text.sameLetters last.text "NOT" = false := by
    decide
  have hothers : ofText "'\x7dz' > 1" = .ok [⟨.string, "\x7dz", 0⟩, ⟨.operator, ">", 5⟩, ⟨.number, "1", 7⟩] := by rfl
  have herror : ofText "y @" = .error ⟨"@", 2⟩ := by rfl
  have hopen : trapped "'\x7dz' > 1".toList = false := by decide
  have hnone : trapped "y @".toList = false := by decide
  refine ⟨htokens, by decide, by decide, his, hnot, ?_, ?_⟩
  · exact ((ofText_append htokens (by decide) (by decide) his hnot).1 _ hothers).mpr fun hcalm =>
      absurd hcalm.2 (by rw [hopen]; decide)
  · exact (ofText_append htokens (by decide) (by decide) his hnot).2 _ herror fun hcalm =>
      absurd hcalm.2 (by rw [hnone]; decide)

/-- The strings `'{x'` and `'}'` with a blank between them are one placeholder. -/
theorem ofText_append_swallowed : ofText "'\x7bx'" = .ok [⟨.string, "\x7bx", 0⟩] ∧
    ofText "'\x7d'" = .ok [⟨.string, "\x7d", 0⟩] ∧ upper (lastSpelling "'\x7bx'" ⟨.string, "\x7bx", 0⟩) ≠ ['I', 'S'] ∧
    Text.isBlankText " " = true ∧
    ofText ("'\x7bx'" ++ " " ++ "'\x7d'") = .ok [⟨.placeholder, "x' '", 0⟩] ∧
    ofText ("'\x7bx'" ++ " " ++ "'\x7d'") ≠
      .ok ([⟨.string, "\x7bx", 0⟩] ++ [⟨.string, "\x7d", 0⟩].map (moved ("'\x7bx'" ++ " ").utf8ByteSize)) := by
  have hread : ofText ("'\x7bx'" ++ " " ++ "'\x7d'") = .ok [⟨.placeholder, "x' '", 0⟩] := by rfl
  refine ⟨by rfl, by rfl, by decide, by decide, hread, fun hall => ?_⟩
  rw [hread] at hall
  cases hall

end GridFilter.Token
