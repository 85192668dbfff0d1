import GridFilter.Proofs.Token.Numbers

/-! Names and the words that are none: a row of name characters is a number, a word of the language, or a name. -/

namespace GridFilter.Lexeme

variable {text rest span word first second : List Char} {c : Char}

theorem orElse_eq_some {α : Type} {a b : Option α} {x : α} :
    (a <|> b) = some x ↔ a = some x ∨ a = none ∧ b = some x := by
  cases a <;> simp

theorem orElse_eq_none {α : Type} {a b : Option α} : (a <|> b) = none ↔ a = none ∧ b = none := by
  cases a <;> simp

/-! ### Rows of name characters -/

/-- A row of name characters, with at least one of them. -/
structure IsWord (span : List Char) : Prop where
  ne_nil : span ≠ []
  name : ∀ c ∈ span, isNameChar c = true

instance : Decidable (IsWord span) :=
  decidable_of_iff ((!span.isEmpty && span.all isNameChar) = true)
    ⟨fun h => ⟨by simp_all, by simp_all⟩, fun h => by simp [h.ne_nil, List.all_eq_true.mpr h.name]⟩

theorem ne_of_name {d : Char} (hc : isNameChar c = true) (hd : isNameChar d = false) : c ≠ d := by
  rintro rfl
  simp [hd] at hc

theorem IsWord.head (h : IsWord span) : ∃ c rest, span = c :: rest ∧ isNameChar c = true := by
  obtain ⟨c, rest, rfl⟩ := List.exists_cons_of_ne_nil h.ne_nil
  exact ⟨c, rest, rfl, h.name c (by simp)⟩

theorem IsWord.of_upper (h : upper span = word) (hword : IsWord word) : IsWord span := by
  refine ⟨fun hnil => hword.ne_nil (by rw [← h, hnil]; rfl), isNameChar_of_upper h hword.name⟩

theorem word?_word (hspan : IsWord span) (hend : endsWord rest = true) (hword : IsWord word) :
    word? word (span ++ rest) = if upper span = word then some (span, rest) else none := by
  split
  · next h => exact word?_eq_some.mpr ⟨rfl, h, hend⟩
  · next h =>
    cases hfound : word? word (span ++ rest) with
    | none => rfl
    | some found =>
      obtain ⟨htext, hupper, hend'⟩ := word?_eq_some.mp hfound
      obtain ⟨rfl, -⟩ := word_unique hspan.name hend (isNameChar_of_upper hupper hword.name) hend' htext
      exact absurd hupper h

theorem endsWord_gap {gap : List Char} (hne : gap ≠ []) (hgap : ∀ c ∈ gap, isGap c = true) :
    endsWord (gap ++ rest) = true := by
  obtain ⟨g, gs, rfl⟩ := List.exists_cons_of_ne_nil hne
  simp [endsWord, isGap_not_name (hgap g (by simp))]

/-- A gap and a word stand at the front of a text. -/
def Follows (word text : List Char) : Prop :=
  ∃ gap behind rest, text = gap ++ (behind ++ rest) ∧ gap ≠ [] ∧ (∀ c ∈ gap, isGap c = true) ∧ upper behind = word ∧
    endsWord rest = true

theorem not_follows_of_head (h : ∀ c ∈ text.head?, isGap c = false) (word : List Char) : ¬Follows word text := by
  rintro ⟨gap, behind, rest, rfl, hne, hgap, -, -⟩
  obtain ⟨g, gap, rfl⟩ := List.exists_cons_of_ne_nil hne
  have hg := h g rfl
  rw [hgap g (by simp)] at hg
  cases hg

/-- A word that follows behind one blank stands right there. -/
theorem Follows.behind_blank (h : Follows word (' ' :: text)) (hhead : ∀ c ∈ text.head?, isGap c = false) :
    ∃ span rest, text = span ++ rest ∧ upper span = word ∧ endsWord rest = true := by
  obtain ⟨gap, behind, rest, htext, hne, hgap, hupper, hend⟩ := h
  obtain ⟨g, gap, rfl⟩ := List.exists_cons_of_ne_nil hne
  obtain ⟨-, rfl⟩ := List.cons.inj htext
  cases gap with
  | nil => exact ⟨behind, rest, rfl, hupper, hend⟩
  | cons d gap =>
    have hd := hhead d rfl
    rw [hgap d (by simp)] at hd
    cases hd

/-- The word behind a gap is the only one that follows. -/
theorem Follows.upper_eq {gap behind : List Char} (hgap : ∀ c ∈ gap, isGap c = true) (hbehind : IsWord behind)
    (hend : endsWord rest = true) (hword : IsWord word) (h : Follows word (gap ++ (behind ++ rest))) :
    upper behind = word := by
  obtain ⟨gap', behind', rest', htext, -, hgap', rfl, hend'⟩ := h
  have hbehind' : IsWord behind' := .of_upper rfl hword
  have hstop {span rest : List Char} (hspan : IsWord span) : ∀ c ∈ (span ++ rest).head?, isGap c = false := by
    obtain ⟨d, tail, rfl, hd⟩ := hspan.head
    rintro c hc
    obtain rfl : d = c := by simpa using hc
    exact Bool.eq_false_iff.mpr fun hgap => by simp [isGap_not_name hgap] at hd
  have hsame : gap = gap' := by
    have htake := congrArg (List.takeWhile isGap) htext
    rwa [takeWhile_append_stop hgap (hstop hbehind), takeWhile_append_stop hgap' (hstop hbehind')] at htake
  rw [hsame] at htext
  exact congrArg upper (word_unique hbehind.name hend hbehind'.name hend' (List.append_cancel_left htext)).1

theorem phrase?_word (hspan : IsWord span) (hend : endsWord rest = true) (hfirst : IsWord first)
    (hsecond : IsWord second) (h : upper span = first → ¬Follows second rest) :
    phrase? first second (span ++ rest) = none := by
  cases hfound : phrase? first second (span ++ rest) with
  | none => rfl
  | some found =>
    obtain ⟨before, gap, behind, -, htext, hbefore, hne, hgap, hbehind, hend'⟩ :=
      (phrase?_eq_some hsecond.name hsecond.ne_nil).mp hfound
    obtain ⟨rfl, hrest⟩ :=
      word_unique hspan.name hend (isNameChar_of_upper hbefore hfirst.name) (endsWord_gap hne hgap) htext
    exact absurd ⟨gap, behind, _, hrest, hne, hgap, hbehind, hend'⟩ (h hbefore)

/-- Two words with a gap between them are one phrase and no other. -/
theorem phrase?_phrase {before gap behind : List Char} (hbefore : IsWord before) (hne : gap ≠ [])
    (hgap : ∀ c ∈ gap, isGap c = true) (hbehind : IsWord behind) (hend : endsWord rest = true) (hfirst : IsWord first)
    (hsecond : IsWord second) : phrase? first second (before ++ (gap ++ (behind ++ rest))) =
      if upper before = first ∧ upper behind = second then some (before ++ gap ++ behind, rest) else none := by
  split
  · next h =>
    exact (phrase?_eq_some hsecond.name hsecond.ne_nil).mpr ⟨_, _, _, rfl, rfl, h.1, hne, hgap, h.2, hend⟩
  · next h =>
    refine phrase?_word hbefore (endsWord_gap hne hgap) hfirst hsecond fun hfirst hfollows => h ⟨hfirst, ?_⟩
    exact hfollows.upper_eq hgap hbehind hend hsecond

/-! ### What else may stand there -/

theorem keyword?_of_head {c : Char} (hi : c.toUpper ≠ 'I') (hn : c.toUpper ≠ 'N') : keyword? (c :: text) = none := by
  simp [keyword?, fixed, word?, letters?, hi, hn]

theorem placeholder?_word (hspan : IsWord span) : placeholder? (span ++ rest) = none := by
  obtain ⟨c, tail, rfl, hc⟩ := hspan.head
  have hquote : c ≠ '\'' := ne_of_name hc (by decide)
  have hbrace : c ≠ '\x7b' := ne_of_name hc (by decide)
  simp [placeholder?, Text.braced?, hquote, hbrace]

theorem string?_word (hspan : IsWord span) : string? (span ++ rest) = none := by
  obtain ⟨c, tail, rfl, hc⟩ := hspan.head
  have hquote : c ≠ '\'' := ne_of_name hc (by decide)
  simp [string?, hquote]

theorem symbol?_word (hspan : IsWord span) : symbol? (span ++ rest) = none := by
  obtain ⟨c, tail, rfl, hc⟩ := hspan.head
  have hgreater : c ≠ '>' := ne_of_name hc (by decide)
  have hless : c ≠ '<' := ne_of_name hc (by decide)
  have hbang : c ≠ '!' := ne_of_name hc (by decide)
  have hequal : c ≠ '=' := ne_of_name hc (by decide)
  simp [symbol?, hgreater, hless, hbang, hequal]

theorem number?_word (hspan : IsWord span) (hend : endsWord rest = true) (h : ¬IsNumber span) :
    number? (span ++ rest) = none := by
  cases hfound : number? (span ++ rest) with
  | none => rfl
  | some found =>
    obtain ⟨digits, -, htext, hnumber, hend'⟩ := number?_eq_some.mp hfound
    obtain ⟨minus, whole, point, rfl, rfl | rfl, hne, hwhole, hpoint⟩ := hnumber
    · rw [List.nil_append] at htext
      obtain ⟨rfl, -⟩ := word_unique hspan.name hend (isNameChar_of_digits hwhole hpoint) hend' htext
      exact absurd ⟨[], whole, point, rfl, .inl rfl, hne, hwhole, hpoint⟩ h
    · obtain ⟨c, tail, rfl, hc⟩ := hspan.head
      obtain ⟨rfl, -⟩ := List.cons.inj htext
      exact absurd hc (by decide)

theorem identifier?_word (hspan : IsWord span) (hend : endsWord rest = true) :
    identifier? (span ++ rest) = some (⟨.identifier, .ofList span, span⟩, rest) := by
  obtain ⟨c, tail, rfl⟩ := List.exists_cons_of_ne_nil hspan.ne_nil
  have hstop := fun c hc => endsWord_iff.mp hend c hc
  simp only [identifier?, takeWhile_append_stop hspan.name hstop, dropWhile_append_stop hspan.name hstop]

/-- What a row of name characters is, unless it is a number. -/
theorem first?_word (hspan : IsWord span) (hend : endsWord rest = true) (h : ¬IsNumber span) :
    first? (span ++ rest) = (keyword? (span ++ rest) <|> wordOperator? (span ++ rest) <|>
      some (⟨.identifier, .ofList span, span⟩, rest)) := by
  simp only [first?, placeholder?_word hspan, string?_word hspan, number?_word hspan hend h, symbol?_word hspan,
    identifier?_word hspan hend]
  rfl

/-! ### Names -/

/-- The words that are no names. -/
def reserved : List (List Char) :=
  [['I', 'S', 'N', 'U', 'L', 'L'], ['N', 'U', 'L', 'L'], ['I', 'S'], ['A', 'N', 'D'], ['O', 'R'], ['I', 'N'],
    ['B', 'E', 'T', 'W', 'E', 'E', 'N'], ['L', 'I', 'K', 'E']]

/-- A row of name characters that is neither a number nor a word of the language. -/
structure IsName (span : List Char) : Prop extends IsWord span where
  not_number : ¬IsNumber span
  not_reserved : upper span ∉ reserved

/-- A text that makes no operator of a word `NOT` in front of it. -/
def Parted (rest : List Char) : Prop := ¬Follows ['I', 'N'] rest ∧ ¬Follows ['L', 'I', 'K', 'E'] rest

theorem word?_name (hspan : IsName span) (hend : endsWord rest = true) (hword : IsWord word ∧ word ∈ reserved) :
    word? word (span ++ rest) = none := by
  rw [word?_word hspan.toIsWord hend hword.1, if_neg]
  rintro rfl
  exact hspan.not_reserved hword.2

theorem keyword?_name (hspan : IsName span) (hend : endsWord rest = true) : keyword? (span ++ rest) = none := by
  have hisNull : word? ['I', 'S', 'N', 'U', 'L', 'L'] (span ++ rest) = none := word?_name hspan hend (by decide)
  have hnull : word? ['N', 'U', 'L', 'L'] (span ++ rest) = none := word?_name hspan hend (by decide)
  simp [keyword?, fixed, hisNull, hnull]

theorem wordOperator?_name (hspan : IsName span) (hend : endsWord rest = true)
    (hparted : upper span = ['N', 'O', 'T'] → Parted rest) : wordOperator? (span ++ rest) = none := by
  have hword (word : List Char) (h : IsWord word ∧ word ∈ reserved) : word? word (span ++ rest) = none :=
    word?_name hspan hend h
  have hisNot : phrase? ['I', 'S'] ['N', 'O', 'T'] (span ++ rest) = none :=
    phrase?_word hspan.toIsWord hend (by decide) (by decide) fun h => absurd (h ▸ by decide) hspan.not_reserved
  have hnotIn : phrase? ['N', 'O', 'T'] ['I', 'N'] (span ++ rest) = none :=
    phrase?_word hspan.toIsWord hend (by decide) (by decide) fun h => (hparted h).1
  have hnotLike : phrase? ['N', 'O', 'T'] ['L', 'I', 'K', 'E'] (span ++ rest) = none :=
    phrase?_word hspan.toIsWord hend (by decide) (by decide) fun h => (hparted h).2
  simp [wordOperator?, fixed, hisNot, hnotIn, hnotLike, hword ['I', 'S'] (by decide), hword ['A', 'N', 'D'] (by decide),
    hword ['O', 'R'] (by decide), hword ['I', 'N'] (by decide), hword ['B', 'E', 'T', 'W', 'E', 'E', 'N'] (by decide),
    hword ['L', 'I', 'K', 'E'] (by decide)]

theorem first?_name (hspan : IsName span) (hend : endsWord rest = true)
    (hparted : upper span = ['N', 'O', 'T'] → Parted rest) :
    first? (span ++ rest) = some (⟨.identifier, .ofList span, span⟩, rest) := by
  rw [first?_word hspan.toIsWord hend hspan.not_number, keyword?_name hspan hend, wordOperator?_name hspan hend hparted]
  rfl

end GridFilter.Lexeme
