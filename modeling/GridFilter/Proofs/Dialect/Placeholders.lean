import GridFilter.Proofs.Dialect.Strings
import GridFilter.Proofs.Parser.Names
import GridFilter.Proofs.Text.Rewritten
import GridFilter.Proofs.Token.Respelling

/-! The names in the braces of a text and the placeholders among its tokens. Names are looked for without regard to
    quotes. What is found are just the placeholders where no brace that opens a name stands inside a string; one that
    does makes the two lists differ. -/

namespace GridFilter.Dialect
open Text Lexeme

variable {text rest front body : List Char} {tokens : List Token} {lexeme : Lexeme} {position : Nat} {c : Char}

/-! ### Names in braces -/

/-- A name in braces stands at the front of a text: it has a character at least and no closing brace. -/
def Encloses (text : List Char) : Prop := ∃ body after, text = inBraces body ++ after ∧ body ≠ [] ∧ '\x7d' ∉ body

theorem encloses_iff : Encloses (c :: rest) ↔ c = '\x7b' ∧ rest.head? ≠ some '\x7d' ∧ '\x7d' ∈ rest := by
  constructor
  · rintro ⟨body, after, htext, hne, hbody⟩
    obtain ⟨b, bs, rfl⟩ := List.exists_cons_of_ne_nil hne
    cases htext
    refine ⟨rfl, ?_, by simp⟩
    rintro ⟨⟩
    exact hbody List.mem_cons_self
  · rintro ⟨rfl, hhead, hmem⟩
    obtain ⟨body, after, rfl, hbody⟩ := List.eq_append_cons_of_mem hmem
    refine ⟨body, after, by simp [inBraces], ?_, hbody⟩
    rintro rfl
    exact hhead rfl

theorem braces_eq_none : braces notClosing text = none ↔ ¬Encloses text := by
  have hrecognizes : Recognizes (braces notClosing) (Braced notClosing) := recognizes_braces (by decide)
  rw [hrecognizes.eq_none]
  constructor
  · rintro hnone ⟨body, after, rfl, hne, hbody⟩
    exact hnone body _ ⟨rfl, hne, notClosing_of_not_mem hbody⟩ (List.prefix_append _ _)
  · rintro hnot body _ ⟨rfl, hne, hbody⟩ ⟨after, rfl⟩
    exact hnot ⟨body, after, rfl, hne, fun hmem => absurd (hbody _ hmem) (by decide)⟩

theorem tail_of_inBraces {after : List Char} (h : c :: rest = inBraces body ++ after) :
    rest = body ++ '\x7d' :: after := by
  rw [inBraces, List.cons_append, List.append_assoc] at h
  exact (List.cons.inj h).2

/-- What stands in the braces of a text. -/
def bodies (text : List Char) : List (List Char) := foundIn (segments (braces notClosing) text)

theorem bodies_plain (h : ¬Encloses (c :: rest)) : bodies (c :: rest) = bodies rest := by
  rw [bodies, segments_plain (braces_eq_none.mpr h)]
  rfl

theorem bodies_plains (h : ∀ back, back ≠ [] → back <:+ front → ¬Encloses (back ++ rest)) :
    bodies (front ++ rest) = bodies rest := by
  rw [bodies, segments_plains fun back hne hback => braces_eq_none.mpr (h back hne hback), foundIn_plains]
  rfl

theorem bodies_of_opening_not_mem (h : '\x7b' ∉ front) : bodies (front ++ rest) = bodies rest := by
  have hfirst (d : Char) (rest : List Char) (hd : d ≠ '\x7b') : braces notClosing (d :: rest) = none :=
    braces_eq_none.mpr fun henc => hd (encloses_iff.mp henc).1
  rw [bodies, segments_of_not_mem hfirst h, foundIn_plains]
  rfl

theorem bodies_inBraces (hne : body ≠ []) (hbody : '\x7d' ∉ body) (rest : List Char) :
    bodies (inBraces body ++ rest) = body :: bodies rest := by
  have hrecognizes : Recognizes (braces notClosing) (Braced notClosing) := recognizes_braces (by decide)
  rw [bodies, hrecognizes.segments_found ⟨rfl, hne, notClosing_of_not_mem hbody⟩]
  rfl

/-- Up to a closing brace, one name is found at most. -/
theorem length_bodies_behind (h : '\x7d' ∉ front) :
    (bodies (front ++ '\x7d' :: rest)).length ≤ (bodies rest).length + 1 := by
  induction front with
  | nil =>
    have hnot : ¬Encloses ('\x7d' :: rest) := fun henc => absurd (encloses_iff.mp henc).1 (by decide)
    rw [List.nil_append, bodies_plain hnot]
    exact Nat.le_succ _
  | cons c front ih =>
    rw [List.mem_cons, not_or] at h
    by_cases henc : Encloses (c :: (front ++ '\x7d' :: rest))
    · obtain ⟨rfl, hhead, -⟩ := encloses_iff.mp henc
      have hne : front ≠ [] := by
        rintro rfl
        exact hhead rfl
      have htext : '\x7b' :: front ++ '\x7d' :: rest = inBraces front ++ rest := by simp [inBraces]
      rw [htext, bodies_inBraces hne h.2]
      rfl
    · rw [List.cons_append, bodies_plain henc]
      exact ih h.2

/-- A character in front hides one name at most, and only where it gives one. -/
theorem length_bodies_cons (c : Char) (rest : List Char) : (bodies rest).length ≤ (bodies (c :: rest)).length := by
  by_cases henc : Encloses (c :: rest)
  · obtain ⟨body, after, htext, hne, hbody⟩ := henc
    rw [htext, bodies_inBraces hne hbody, tail_of_inBraces htext]
    exact length_bodies_behind hbody
  · rw [bodies_plain henc]

theorem length_bodies_append (front rest : List Char) : (bodies rest).length ≤ (bodies (front ++ rest)).length := by
  induction front with
  | nil => exact Nat.le_refl _
  | cons c front ih => exact Nat.le_trans ih (length_bodies_cons c (front ++ rest))

/-! ### Braces among tokens -/

theorem opening_not_mem_word (h : ∀ c ∈ text, isNameChar c = true) : '\x7b' ∉ text :=
  fun hmem => absurd (h _ hmem) (by decide)

theorem opening_not_mem_phrase (h : IsPhrase text) : '\x7b' ∉ text := by
  intro hmem
  rcases h.chars _ hmem with hc | hc <;> exact absurd hc (by decide)

theorem opening_not_mem_span (h : SpelledAlone lexeme) (hstring : lexeme.kind ≠ .string)
    (hplaceholder : lexeme.kind ≠ .placeholder) : '\x7b' ∉ lexeme.span := by
  cases h with
  | word hword => exact opening_not_mem_phrase (isLanguage_word hword).phrase
  | phrase hphrase hne hgap => exact opening_not_mem_phrase (isLanguage_phrase hphrase hne hgap).phrase
  | sign hsign =>
    have hsigns : ∀ entry ∈ signTokens, '\x7b' ∉ entry.1 := by decide
    exact hsigns _ hsign
  | braces | quotedBraces => exact absurd rfl hplaceholder
  | string => exact absurd rfl hstring
  | number hspan =>
    obtain ⟨minus, digits, point, rfl, hminus, -, hdigits, hpoint⟩ := hspan
    have hname := opening_not_mem_word (isNameChar_of_digits hdigits hpoint)
    rcases hminus with rfl | rfl
    · exact hname
    · simpa using hname
  | name hspan => exact opening_not_mem_word hspan.name

/-- The tokens of a text as far as braces go: stretches without any, strings, and placeholders. -/
inductive Outlined : Nat → List Char → List Token → Prop where
  | nil {position : Nat} : Outlined position [] []
  | plain {position : Nat} {front rest : List Char} {taken tokens : List Token} : '\x7b' ∉ front → '\x7d' ∉ front →
      (∀ token ∈ taken, token.kind ≠ .string ∧ token.kind ≠ .placeholder ∧ position ≤ token.position) →
      Outlined (position + byteSize front) rest tokens → Outlined position (front ++ rest) (taken ++ tokens)
  | string {position : Nat} {rest : List Char} {token : Token} {tokens : List Token} : token.kind = .string →
      token.position = position → Outlined (position + byteSize (quotes token.text.toList)) rest tokens →
      Outlined position (quotes token.text.toList ++ rest) (token :: tokens)
  | placeholder {position : Nat} {body rest : List Char} {lexeme : Lexeme} {tokens : List Token} :
      IsPlaceholder lexeme body → Outlined (position + byteSize lexeme.span) rest tokens →
      Outlined position (lexeme.span ++ rest) (⟨lexeme.kind, lexeme.text, position⟩ :: tokens)

theorem Outlined.blank (hc : isBlank c = true) (h : Outlined (position + c.utf8Size) text tokens) :
    Outlined position (c :: text) tokens := by
  have hblank : ∀ d ∈ [c], isBlank d = true := List.forall_mem_singleton.mpr hc
  exact @Outlined.plain position [c] text [] tokens (not_mem_blanks (by decide) hblank)
    (not_mem_blanks (by decide) hblank) (by simp) h

theorem Outlined.token (halone : SpelledAlone lexeme) (h : Outlined (position + byteSize lexeme.span) rest tokens) :
    Outlined position (lexeme.span ++ rest) (⟨lexeme.kind, lexeme.text, position⟩ :: tokens) := by
  by_cases hstring : lexeme.kind = .string
  · rw [halone.span_eq_quotes hstring] at h ⊢
    exact @Outlined.string position rest ⟨lexeme.kind, lexeme.text, position⟩ tokens hstring rfl h
  by_cases hplaceholder : lexeme.kind = .placeholder
  · have hspelled := halone.spelled
    rw [Spelled, hplaceholder] at hspelled
    obtain ⟨body, hbody⟩ := hspelled
    exact .placeholder hbody h
  · have hclosing := Token.closing_not_mem_span halone.spelled hstring hplaceholder
    exact @Outlined.plain position lexeme.span rest [⟨lexeme.kind, lexeme.text, position⟩] tokens
      (opening_not_mem_span halone hstring hplaceholder) hclosing
      (List.forall_mem_singleton.mpr ⟨hstring, hplaceholder, Nat.le_refl _⟩) h

theorem outlined_of_lexes (h : Token.Lexes position text tokens) : Outlined position text tokens := by
  induction h with
  | nil => exact .nil
  | blank hc _ ih => exact ih.blank hc
  | token hfirst _ ih =>
    obtain ⟨rfl, halone, -⟩ := taken_first? hfirst
    exact ih.token halone

theorem Outlined.position_le (h : Outlined position text tokens) : ∀ token ∈ tokens, position ≤ token.position := by
  induction h with
  | nil => simp
  | plain _ _ htaken _ ih =>
    refine List.forall_mem_append.mpr ⟨fun token htoken => (htaken token htoken).2.2, fun token htoken => ?_⟩
    exact Nat.le_trans (Nat.le_add_right _ _) (ih token htoken)
  | string _ hposition _ ih =>
    refine List.forall_mem_cons.mpr ⟨Nat.le_of_eq hposition.symm, fun token htoken => ?_⟩
    exact Nat.le_trans (Nat.le_add_right _ _) (ih token htoken)
  | placeholder _ _ ih =>
    refine List.forall_mem_cons.mpr ⟨Nat.le_refl _, fun token htoken => ?_⟩
    exact Nat.le_trans (Nat.le_add_right _ _) (ih token htoken)

/-! ### Placeholders and names -/

theorem placeholders_append_of_plain {taken : List Token} (h : ∀ token ∈ taken, token.kind ≠ .placeholder) :
    Token.placeholders (taken ++ tokens) = Token.placeholders tokens := by
  have hnone : taken.filterMap Token.placeholder? = [] :=
    List.filterMap_eq_nil_iff.mpr fun token htoken => if_neg (h token htoken)
  rw [Token.placeholders, List.filterMap_append, hnone]
  rfl

theorem placeholders_string {token : Token} (h : token.kind = .string) :
    Token.placeholders (token :: tokens) = Token.placeholders tokens :=
  List.filterMap_cons_none (Token.placeholder?_of_kind h (by decide))

theorem placeholders_isPlaceholder (h : IsPlaceholder lexeme body) :
    Token.placeholders (⟨lexeme.kind, lexeme.text, position⟩ :: tokens) =
      .ofList (trim body) :: Token.placeholders tokens := by
  rw [← h.text]
  exact List.filterMap_cons_some (if_pos h.kind)

/-- A placeholder stands where its name is found, whether its braces are in quotes or not. -/
theorem bodies_isPlaceholder (h : IsPlaceholder lexeme body) : bodies (lexeme.span ++ rest) = body :: bodies rest := by
  have hquote (rest : List Char) : bodies (['\''] ++ rest) = bodies rest := bodies_of_opening_not_mem (by decide)
  rcases h.span with hspan | hspan
  · rw [hspan, bodies_inBraces h.ne_nil h.open_brace]
  · rw [hspan, ← List.singleton_append, List.append_assoc, hquote, List.append_assoc,
      bodies_inBraces h.ne_nil h.open_brace, hquote]

/-- A text has as many names in braces as placeholders, or more. -/
theorem Outlined.length_placeholders_le (h : Outlined position text tokens) :
    (Token.placeholders tokens).length ≤ (bodies text).length := by
  induction h with
  | nil => exact Nat.le_refl 0
  | plain hopening _ htaken _ ih =>
    rwa [placeholders_append_of_plain fun token htoken => (htaken token htoken).2.1, bodies_of_opening_not_mem hopening]
  | string hkind _ _ ih =>
    rw [placeholders_string hkind]
    exact Nat.le_trans ih (length_bodies_append _ _)
  | placeholder hbody _ ih =>
    rw [placeholders_isPlaceholder hbody, bodies_isPlaceholder hbody]
    exact Nat.succ_le_succ ih

theorem append_of_closing_not_mem {span behind : List Char} (hspan : '\x7d' ∉ span)
    (h : span ++ behind = front ++ '\x7d' :: rest) :
    ∃ middle, front = span ++ middle ∧ behind = middle ++ '\x7d' :: rest := by
  rcases List.append_eq_append_iff.mp h with ⟨middle, hfront, hbehind⟩ | ⟨middle, rfl, hrest⟩
  · exact ⟨middle, hfront, hbehind⟩
  · cases middle with
    | nil => exact ⟨[], by simp, hrest.symm⟩
    | cons c middle =>
      obtain ⟨rfl, -⟩ := List.cons.inj hrest
      exact absurd (by simp) hspan

theorem append_closing_inj {lead after : List Char} (hlead : '\x7d' ∉ lead) (hfront : '\x7d' ∉ front)
    (h : lead ++ '\x7d' :: after = front ++ '\x7d' :: rest) : lead = front ∧ after = rest := by
  obtain ⟨middle, rfl, hbehind⟩ := append_of_closing_not_mem hlead h
  cases middle with
  | nil => exact ⟨(List.append_nil _).symm, (List.cons.inj hbehind).2⟩
  | cons c middle =>
    obtain ⟨rfl, -⟩ := List.cons.inj hbehind
    exact absurd (by simp) hfront

/-- A closing brace and the names of placeholders: as many names are found behind the brace, or it closes the first of
    the placeholders. -/
def ClosesFirst (front rest : List Char) (names : List String) : Prop :=
  names.length ≤ (bodies rest).length ∨
    ∃ lead body others, front = lead ++ '\x7b' :: body ∧ names = .ofList (trim body) :: others

theorem ClosesFirst.append {names : List String} (h : ClosesFirst front rest names) (span : List Char) :
    ClosesFirst (span ++ front) rest names := by
  refine h.imp_right ?_
  rintro ⟨lead, body, others, rfl, hnames⟩
  exact ⟨span ++ lead, body, others, (List.append_assoc _ _ _).symm, hnames⟩

/-- The first closing brace of a text stands in front of all placeholders, or closes the first of them. -/
theorem Outlined.closesFirst (h : Outlined position text tokens) (htext : text = front ++ '\x7d' :: rest)
    (hfront : '\x7d' ∉ front) : ClosesFirst front rest (Token.placeholders tokens) := by
  induction h generalizing front with
  | nil => simp at htext
  | plain _ hclosing htaken _ ih =>
    obtain ⟨middle, rfl, hbehind⟩ := append_of_closing_not_mem hclosing htext
    rw [placeholders_append_of_plain fun token htoken => (htaken token htoken).2.1]
    exact (ih hbehind fun hmem => hfront (List.mem_append_right _ hmem)).append _
  | @string position behind token tokens hkind _ hbehind ih =>
    rw [placeholders_string hkind]
    by_cases hclosing : '\x7d' ∈ quotes token.text.toList
    -- The brace stands in the string, and so in front of all placeholders.
    · obtain ⟨lead, tail, hspan, hlead⟩ := List.eq_append_cons_of_mem hclosing
      rw [hspan, List.append_assoc, List.cons_append] at htext
      obtain ⟨-, rfl⟩ := append_closing_inj hlead hfront htext
      exact .inl (Nat.le_trans hbehind.length_placeholders_le (length_bodies_append tail behind))
    · obtain ⟨middle, rfl, hbehind⟩ := append_of_closing_not_mem hclosing htext
      exact (ih hbehind fun hmem => hfront (List.mem_append_right _ hmem)).append _
  | @placeholder position body behind lexeme tokens hbody =>
    rw [placeholders_isPlaceholder hbody]
    have hclosing (lead : List Char) (hlead : '\x7d' ∉ lead) : '\x7d' ∉ lead ++ '\x7b' :: body := by
      simp [hlead, hbody.open_brace]
    refine .inr ?_
    rcases hbody.span with hspan | hspan
    · have hbraces : ([] ++ '\x7b' :: body) ++ '\x7d' :: behind = front ++ '\x7d' :: rest := by
        rw [← htext, hspan]
        simp [inBraces]
      obtain ⟨rfl, -⟩ := append_closing_inj (hclosing [] (by decide)) hfront hbraces
      exact ⟨[], body, _, rfl, rfl⟩
    · have hbraces : (['\''] ++ '\x7b' :: body) ++ '\x7d' :: '\'' :: behind = front ++ '\x7d' :: rest := by
        rw [← htext, hspan]
        simp [inBraces]
      obtain ⟨rfl, -⟩ := append_closing_inj (hclosing ['\''] (by decide)) hfront hbraces
      exact ⟨['\''], body, _, rfl, rfl⟩

/-! ### Names that begin inside a string -/

/-- The name that braces hold: what stands in them, without blanks on either side. -/
def nameOf (body : List Char) : String := .ofList (trim body)

/-- Where a name begins in front of the tokens of a text, the names are not those of the placeholders: there are more of
    them, or the first of them has a brace too many. -/
theorem Outlined.names_ne (h : Outlined position rest tokens) {back tail : List Char} (htail : tail <:+ back)
    (hne : tail ≠ []) (henc : Encloses (tail ++ rest)) :
    (bodies (back ++ rest)).map nameOf ≠ Token.placeholders tokens := by
  induction back with
  | nil => exact absurd (List.suffix_nil.mp htail) hne
  | cons c back ih =>
    by_cases hc : Encloses (c :: (back ++ rest))
    · obtain ⟨body, after, htext, hbody, hclosing⟩ := hc
      have hinner : back ++ rest = body ++ '\x7d' :: after := tail_of_inBraces htext
      rw [List.cons_append, htext, bodies_inBraces hbody hclosing]
      intro heq
      have hlength := congrArg List.length heq
      rw [List.map_cons, List.length_cons, List.length_map] at hlength
      by_cases hback : '\x7d' ∈ back
      -- The name ends in front of the tokens, so that it is found besides all that stand among them.
      · obtain ⟨lead, more, rfl, hlead⟩ := List.eq_append_cons_of_mem hback
        rw [List.append_assoc, List.cons_append] at hinner
        obtain ⟨-, rfl⟩ := append_closing_inj hlead hclosing hinner
        have hnames := h.length_placeholders_le
        have hbehind := length_bodies_append more rest
        omega
      -- The name reaches into the text of the tokens, as far as the first brace that is closed there.
      · obtain ⟨front, rfl, hrest⟩ := append_of_closing_not_mem hback hinner
        rcases h.closesFirst hrest fun hmem => hclosing (List.mem_append_right _ hmem) with
          hle | ⟨lead, inner, others, rfl, hnames⟩
        · omega
        · rw [hnames] at heq
          have hname := congrArg (fun name => name.toList.count '\x7b') (List.cons.inj heq).1
          simp only [nameOf, String.toList_ofList, count_trim (by decide : isBlank '\x7b' = false), List.count_append,
            List.count_cons_self] at hname
          omega
    · rw [List.cons_append, bodies_plain hc]
      rcases List.suffix_cons_iff.mp htail with rfl | htail
      · exact absurd henc hc
      · exact ih htail

/-- A name in braces begins inside a string. -/
def BeginsInString (position : Nat) (tokens : List Token) (text : List Char) : Prop :=
  ∃ before behind, text = before ++ behind ∧ Encloses behind ∧
    InString tokens (position + byteSize before, position + byteSize before + 1)

theorem beginsInString_append (h : ∀ token ∈ tokens, position + byteSize front ≤ token.position) :
    BeginsInString position tokens (front ++ rest) ↔ BeginsInString (position + byteSize front) tokens rest := by
  constructor
  · rintro ⟨before, behind, htext, henc, token, htoken, hstring, hstart, hstop⟩
    have hle := h token htoken
    dsimp only at hstart
    obtain ⟨middle, rfl, hrest⟩ := append_of_byteSize_le htext (by omega)
    rw [Token.byteSize_append, ← Nat.add_assoc] at hstart hstop
    exact ⟨middle, behind, hrest, henc, token, htoken, hstring, hstart, hstop⟩
  · rintro ⟨middle, behind, rfl, henc, hstring⟩
    rw [Nat.add_assoc, ← Token.byteSize_append] at hstring
    exact ⟨front ++ middle, behind, (List.append_assoc _ _ _).symm, henc, hstring⟩

theorem inString_append {taken : List Token} {places : Nat × Nat} (h : ∀ token ∈ taken, token.kind ≠ .string) :
    InString (taken ++ tokens) places ↔ InString tokens places := by
  constructor
  · rintro ⟨token, htoken, hstring, hplace⟩
    rcases List.mem_append.mp htoken with htoken | htoken
    · exact absurd hstring (h token htoken)
    · exact ⟨token, htoken, hstring, hplace⟩
  · rintro ⟨token, htoken, hplace⟩
    exact ⟨token, List.mem_append_right _ htoken, hplace⟩

theorem beginsInString_plain {taken : List Token} (h : ∀ token ∈ taken, token.kind ≠ .string) :
    BeginsInString position (taken ++ tokens) text ↔ BeginsInString position tokens text := by
  simp only [BeginsInString, inString_append h]

theorem beginsInString_string {token : Token} (hkind : token.kind = .string) (hposition : token.position = position) :
    BeginsInString position (token :: tokens) (quotes token.text.toList ++ rest) ↔
      (∃ tail, tail <:+ quotes token.text.toList ∧ tail ≠ [] ∧ Encloses (tail ++ rest)) ∨
        BeginsInString position tokens (quotes token.text.toList ++ rest) := by
  subst hposition
  constructor
  · rintro ⟨before, behind, htext, henc, other, hother, hstring, hstart, hstop⟩
    rcases List.mem_cons.mp hother with rfl | hother
    · dsimp only at hstop
      obtain ⟨tail, hspan, rfl⟩ := append_of_byteSize_le htext.symm (by omega)
      refine .inl ⟨tail, ⟨before, hspan.symm⟩, ?_, henc⟩
      rintro rfl
      rw [List.append_nil] at hspan
      rw [hspan] at hstop
      omega
    · exact .inr ⟨before, behind, htext, henc, other, hother, hstring, hstart, hstop⟩
  · rintro (⟨tail, ⟨lead, hspan⟩, hne, henc⟩ | ⟨before, behind, htext, henc, other, hother, hplace⟩)
    · refine ⟨lead, tail ++ rest, by rw [← hspan, List.append_assoc], henc, token, List.mem_cons_self, hkind,
        Nat.le_add_right _ _, ?_⟩
      have hpos := Token.byteSize_pos hne
      rw [← hspan, Token.byteSize_append]
      dsimp only
      omega
    · exact ⟨before, behind, htext, henc, other, List.mem_cons_of_mem _ hother, hplace⟩

/-- The names in the braces of a text are those of its placeholders exactly if none of them begins inside a string. -/
theorem Outlined.names_eq_iff (h : Outlined position text tokens) :
    (bodies text).map nameOf = Token.placeholders tokens ↔ ¬BeginsInString position tokens text := by
  induction h with
  | nil =>
    refine iff_of_true rfl ?_
    rintro ⟨-, -, -, -, token, htoken, -⟩
    cases htoken
  | plain hopening _ htaken hrest ih =>
    rw [bodies_of_opening_not_mem hopening, placeholders_append_of_plain fun token htoken => (htaken token htoken).2.1,
      beginsInString_plain fun token htoken => (htaken token htoken).1, beginsInString_append hrest.position_le, ih]
  | @string position rest token tokens hkind hposition hrest ih =>
    rw [placeholders_string hkind, beginsInString_string hkind hposition, beginsInString_append hrest.position_le]
    by_cases hbegins : ∃ tail, tail <:+ quotes token.text.toList ∧ tail ≠ [] ∧ Encloses (tail ++ rest)
    · refine iff_of_false ?_ fun hnot => hnot (.inl hbegins)
      obtain ⟨tail, htail, hne, henc⟩ := hbegins
      exact hrest.names_ne htail hne henc
    · rw [bodies_plains fun back hne hback henc => hbegins ⟨back, hback, hne, henc⟩, ih]
      simp [hbegins]
  | @placeholder position body rest lexeme tokens hbody hrest ih =>
    have hplain : ∀ token ∈ [(⟨lexeme.kind, lexeme.text, position⟩ : Token)], token.kind ≠ .string := by
      simp [hbody.kind]
    have hbegins := @beginsInString_plain (lexeme.span ++ rest) tokens position _ hplain
    rw [List.singleton_append] at hbegins
    rw [bodies_isPlaceholder hbody, placeholders_isPlaceholder hbody, hbegins, beginsInString_append hrest.position_le,
      ← ih, List.map_cons, List.cons.injEq]
    exact and_iff_right rfl

theorem map_filter_ofList (names : List (List Char)) :
    (names.filter (· ≠ [])).map String.ofList = (names.map String.ofList).filter (· ≠ "") := by
  rw [List.filter_map]
  congr 1
  refine List.filter_congr fun name _ => ?_
  simp [String.ofList_eq_empty_iff]

/-- In a text without a section, the names in braces are looked for as if there were no strings. They are those of its
    placeholders, in their order, exactly if none of them begins inside a string; and then the text in the inline dialect
    has just these names, blank ones left out and each at its first place. -/
theorem names_of_ofText {text : String} {tokens : List Token} (hsection : ¬HasSection text.toList)
    (htokens : Token.ofText text = .ok tokens) :
    ((inlineNames text.toList).map String.ofList = Token.placeholders tokens ↔
      ¬BeginsInString 0 tokens text.toList) ∧
    (¬BeginsInString 0 tokens text.toList →
      (canonicalize text).names = ((Token.placeholders tokens).filter (· ≠ "")).eraseDups) := by
  have hnames : (inlineNames text.toList).map String.ofList = Token.placeholders tokens ↔
      ¬BeginsInString 0 tokens text.toList := by
    rw [← (outlined_of_lexes (Token.ofChars_eq_ok.mp htokens)).names_eq_iff, inlineNames, List.map_map]
    rfl
  refine ⟨hnames, fun hnone => ?_⟩
  rw [canonicalize_of_not_hasSection hsection, ← hnames.mpr hnone, ← map_filter_ofList, namesOf, distinct_eq_eraseDups]

/-- A text with braces in quotes of all sorts: in strings that hold no name, and around a placeholder. -/
def bracedInQuotes : String :=
  "A = 'a\x7b\x7db' AND B IN ('\x7b Z \x7d', \x7b \x7d, \x7bÉ\x7d, \x7bÉ\x7d) OR C = '\x7d' OR D <> '\x7b'"

/-- Its tokens. -/
def bracedInQuotesTokens : List Token := [⟨.identifier, "A", 0⟩, ⟨.operator, "=", 2⟩, ⟨.string, "a\x7b\x7db", 4⟩,
  ⟨.operator, "AND", 11⟩, ⟨.identifier, "B", 15⟩, ⟨.operator, "IN", 17⟩, ⟨.paren, "(", 20⟩, ⟨.placeholder, "Z", 21⟩,
  ⟨.comma, ",", 28⟩, ⟨.placeholder, "", 30⟩, ⟨.comma, ",", 33⟩, ⟨.placeholder, "É", 35⟩, ⟨.comma, ",", 39⟩,
  ⟨.placeholder, "É", 41⟩, ⟨.paren, ")", 45⟩, ⟨.operator, "OR", 47⟩, ⟨.identifier, "C", 50⟩, ⟨.operator, "=", 52⟩,
  ⟨.string, "\x7d", 54⟩, ⟨.operator, "OR", 58⟩, ⟨.identifier, "D", 61⟩, ⟨.operator, "!=", 63⟩, ⟨.string, "\x7b", 66⟩]

theorem names_of_ofText_bracedInQuotes : ¬HasSection bracedInQuotes.toList ∧
    Token.ofText bracedInQuotes = .ok bracedInQuotesTokens ∧
    ¬BeginsInString 0 bracedInQuotesTokens bracedInQuotes.toList ∧
    (canonicalize bracedInQuotes).names = ((Token.placeholders bracedInQuotesTokens).filter (· ≠ "")).eraseDups := by
  have hsection : ¬HasSection bracedInQuotes.toList := foundIn_eq_nil.mp (by decide +kernel)
  have htokens : Token.ofText bracedInQuotes = .ok bracedInQuotesTokens := by rfl
  have hnames : (inlineNames bracedInQuotes.toList).map String.ofList = Token.placeholders bracedInQuotesTokens := by
    decide +kernel
  obtain ⟨hiff, hall⟩ := names_of_ofText hsection htokens
  exact ⟨hsection, htokens, hiff.mp hnames, hall (hiff.mp hnames)⟩

/-- The filter `Name = 'see {B}'` has a name and no placeholder. -/
theorem names_found_in_string : ¬HasSection "Name = 'see \x7bB\x7d'".toList ∧
    Token.ofText "Name = 'see \x7bB\x7d'" =
      .ok [⟨.identifier, "Name", 0⟩, ⟨.operator, "=", 5⟩, ⟨.string, "see \x7bB\x7d", 7⟩] ∧
    (canonicalize "Name = 'see \x7bB\x7d'").names = ["B"] ∧
    (canonicalize "Name = 'see \x7bB\x7d'").names ≠ ((Token.placeholders
      [⟨.identifier, "Name", 0⟩, ⟨.operator, "=", 5⟩, ⟨.string, "see \x7bB\x7d", 7⟩]).filter (· ≠ "")).eraseDups :=
  ⟨foundIn_eq_nil.mp (by decide +kernel), by rfl, by decide +kernel, by decide +kernel⟩

end GridFilter.Dialect
